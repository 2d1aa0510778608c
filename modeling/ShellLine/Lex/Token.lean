import ShellLine.Lex.Quote

/-!
# Lex/Token — values, blank runs, and how a line splits into them

A line is a sequence of tokens: values (words and quoted texts) and runs of blanks.  One character
decides what a token is, and the token then takes what belongs to it.

* `Token.text` gives the exact text a token was read from, and `text_read` says that reading a
  token loses nothing.
* `tokenize` splits a whole line; `flatten_tokenize` says that the texts of the tokens, one after
  the other, are the line.
-/

namespace ShellLine

/-- A value: a bare word, a quoted text, or a quoted text whose closing quote is missing. -/
inductive Value
  | word (content : List Char)
  | quoted (quote : Char) (content : List Char)
  | unclosed (quote : Char) (content : List Char)
  deriving DecidableEq, Inhabited

/-- A token of a line: a value, or a run of blanks. -/
inductive Token
  | value (v : Value)
  | blank (run : List Char)
  deriving DecidableEq, Inhabited

namespace Value

/-- What the value says: its text without the quotes. -/
def content : Value → List Char
  | word s => s
  | quoted _ s => s
  | unclosed _ s => s

/-- The quote around a value. -/
def quote? : Value → Option Char
  | word _ => none
  | quoted q _ => some q
  | unclosed q _ => some q

/-- The text the value was read from. -/
def text : Value → List Char
  | word s => s
  | quoted q s => q :: s ++ [q]
  | unclosed q s => q :: s

/-- Is the closing quote missing? -/
def isUnclosed : Value → Bool
  | unclosed _ _ => true
  | _ => false

/-- Does the value stand in quotes? -/
def isQuoted (v : Value) : Bool := v.quote?.isSome

end Value

namespace Token

/-- What the token says: its text without the quotes. -/
def content : Token → List Char
  | value v => v.content
  | blank s => s

/-- The quote around a token. -/
def quote? : Token → Option Char
  | value v => v.quote?
  | blank _ => none

/-- The text the token was read from. -/
def text : Token → List Char
  | value v => v.text
  | blank s => s

/-- Is the token a run of blanks? -/
def isBlankRun : Token → Bool
  | blank _ => true
  | value _ => false

/-- Is the token a quoted value whose closing quote is missing? -/
def isUnclosed : Token → Bool
  | value v => v.isUnclosed
  | blank _ => false

/-- The value a token holds. -/
def value? : Token → Option Value
  | value v => some v
  | blank _ => none

end Token

/-! ## Reading one value or token -/

/-- Split a text at the quote that closes it: the first `q` that does not follow a backslash.
`before` is the character in front of the text. -/
def splitAtClose (q : Char) : Option Char → List Char → Option (List Char × List Char)
  | _, [] => none
  | before, c :: s =>
    if c = q ∧ before ≠ some '\x5c' then some ([], s)
    else (splitAtClose q (some c) s).map fun p => (c :: p.1, p.2)

/-- The characters of a word, and what follows it. -/
def splitWord (s : List Char) : List Char × List Char :=
  (s.takeWhile fun c => !endsWord c, s.dropWhile fun c => !endsWord c)

/-- Read the value that begins with `c`, where `s` follows `c`. -/
def Value.read (c : Char) (s : List Char) : Value × List Char :=
  if isQuote c then
    match splitAtClose c (some c) s with
    | some (content, rest) => (.quoted c content, rest)
    | none => (.unclosed c s, [])
  else (.word (c :: (splitWord s).1), (splitWord s).2)

/-- Read the token that begins with `c`, where `s` follows `c`. -/
def Token.read (c : Char) (s : List Char) : Token × List Char :=
  if isBlank c then (.blank (c :: s.takeWhile isBlank), s.dropWhile isBlank)
  else (.value (Value.read c s).1, (Value.read c s).2)

theorem eq_of_splitAtClose {q : Char} : ∀ {before : Option Char} {s content rest : List Char},
    splitAtClose q before s = some (content, rest) → content ++ q :: rest = s
  | _, [], _, _, h => by simp [splitAtClose] at h
  | before, c :: s, content, rest, h => by
      unfold splitAtClose at h
      split at h
      · rename_i hc
        simp only [Option.some.injEq, Prod.mk.injEq] at h
        simp [← h.1, ← h.2, hc.1]
      · simp only [Option.map_eq_some_iff, Prod.mk.injEq] at h
        obtain ⟨p, hp, rfl, rfl⟩ := h
        simp [eq_of_splitAtClose hp]

theorem Value.text_read (c : Char) (s : List Char) :
    (Value.read c s).1.text ++ (Value.read c s).2 = c :: s := by
  unfold Value.read
  split
  · split
    · rename_i h
      simp [Value.text, ← eq_of_splitAtClose h]
    · simp [Value.text]
  · simp [Value.text, splitWord]

/-- Reading a token loses nothing. -/
theorem Token.text_read (c : Char) (s : List Char) :
    (Token.read c s).1.text ++ (Token.read c s).2 = c :: s := by
  unfold Token.read
  split
  · simp [Token.text]
  · exact Value.text_read c s

theorem Value.text_read_ne_nil (c : Char) (s : List Char) : (Value.read c s).1.text ≠ [] := by
  unfold Value.read
  split
  · split <;> simp [Value.text]
  · simp [Value.text]

theorem Token.text_read_ne_nil (c : Char) (s : List Char) : (Token.read c s).1.text ≠ [] := by
  unfold Token.read
  split
  · simp [Token.text]
  · exact Value.text_read_ne_nil c s

theorem Value.length_read (c : Char) (s : List Char) : (Value.read c s).2.length ≤ s.length := by
  have h := congrArg List.length (Value.text_read c s)
  have := List.length_pos_iff.2 (Value.text_read_ne_nil c s)
  simp only [List.length_append, List.length_cons] at h
  omega

theorem Token.length_read (c : Char) (s : List Char) : (Token.read c s).2.length ≤ s.length := by
  have h := congrArg List.length (Token.text_read c s)
  have := List.length_pos_iff.2 (Token.text_read_ne_nil c s)
  simp only [List.length_append, List.length_cons] at h
  omega

/-! ## Whole lines -/

/-- The tokens of a line, in order. -/
def tokenize : List Char → List Token
  | [] => []
  | c :: s => (Token.read c s).1 :: tokenize (Token.read c s).2
termination_by s => s.length
decreasing_by
  have := Token.length_read c s
  simp only [List.length_cons]
  omega

/-- The first token of a line. -/
def firstToken? : List Char → Option Token
  | [] => none
  | c :: s => some (Token.read c s).1

/-- The last token of a line. -/
def lastToken? (s : List Char) : Option Token := (tokenize s).getLast?

@[simp] theorem tokenize_nil : tokenize [] = [] := by rw [tokenize]

theorem tokenize_cons (c : Char) (s : List Char) :
    tokenize (c :: s) = (Token.read c s).1 :: tokenize (Token.read c s).2 := by rw [tokenize]

theorem head?_tokenize (s : List Char) : (tokenize s).head? = firstToken? s := by
  cases s <;> simp [tokenize_cons, firstToken?]

/-- **The texts of the tokens, one after the other, are the line.** -/
theorem flatten_tokenize (s : List Char) : ((tokenize s).map Token.text).flatten = s := by
  fun_induction tokenize s with
  | case1 => rfl
  | case2 c s ih => simp [ih, Token.text_read]

end ShellLine
