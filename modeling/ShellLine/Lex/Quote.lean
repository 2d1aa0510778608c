import ShellLine.Text.Blank

/-!
# Lex/Quote — the quotes, and where words and keys end

Three characters open and close a quoted value.  A word ends at a quote or a blank; the key of an
assignment ends there too, and at an equals sign.
-/

namespace ShellLine

/-- The quotes: backtick, double quote, single quote. -/
def isQuote (c : Char) : Bool := c == '\x60' || c == '\x22' || c == '\x27'

/-- The name of a quote. -/
def quoteName? (c : Char) : Option String :=
  if c = '\x60' then some "backtick"
  else if c = '\x22' then some "double_quote"
  else if c = '\x27' then some "single_quote"
  else none

/-- A word ends before a quote or a blank. -/
def endsWord (c : Char) : Bool := isQuote c || isBlank c

/-- A key ends before a quote, an equals sign or a blank. -/
def endsKey (c : Char) : Bool := isQuote c || c == '=' || isBlank c

/-- Exactly the quotes have names. -/
theorem isSome_quoteName? (c : Char) : (quoteName? c).isSome = isQuote c := by
  unfold quoteName? isQuote
  split
  · simp_all
  · split
    · simp_all
    · split <;> simp_all

/-- No quote is a blank. -/
theorem isBlank_eq_false_of_isQuote {c : Char} (h : isQuote c = true) : isBlank c = false := by
  simp only [isQuote, Bool.or_eq_true, beq_iff_eq] at h
  rcases h with (rfl | rfl) | rfl <;> rfl

theorem isQuote_eq_false_of_isBlank {c : Char} (h : isBlank c = true) : isQuote c = false := by
  cases hq : isQuote c with
  | false => rfl
  | true => exact absurd (isBlank_eq_false_of_isQuote hq) (by simp [h])

/-! ## Whole texts

A text of one character is judged as that character.  A longer one is no quote and no equals sign,
but it may be a run of blanks. -/

/-- Is the text a single quote character? -/
def isQuoteText : List Char → Bool
  | [c] => isQuote c
  | _ => false

/-- The name of a text that is a single quote character. -/
def quoteNameText? : List Char → Option String
  | [c] => quoteName? c
  | _ => none

/-- Would the text, standing alone, end a word? -/
def endsWordText (s : List Char) : Bool := isQuoteText s || isBlankText s

/-- Would the text, standing alone, end a key? -/
def endsKeyText (s : List Char) : Bool := isQuoteText s || s == ['='] || isBlankText s

end ShellLine
