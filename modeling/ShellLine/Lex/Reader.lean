import ShellLine.Lex.Token
import ShellLine.Text.Position

/-!
# Lex/Reader — a place in a text, and what can be read from there

A reader holds a text split at a place: what is behind it and what is ahead.  It can move on by one
character or by a token, and look at characters around its place.

* `Reader.text_advance` says that moving never changes the text.
* The token readers `dispatched`, `blankRun` and `word` expect that the first character of their
  token has been read already, so what they return begins one character behind the place.
* `Reader.nextToken` reads one character and hands over to one of them; `nextToken_cons` says that
  it reads the token `Token.read` gives and moves behind its text.
-/

namespace ShellLine

/-- A text split at a place. `behind` is in reverse, nearest character first; `latest` is what the
last move read, and before any move the first character of the text. -/
structure Reader where
  behind : List Char
  ahead : List Char
  latest : Option Char
  deriving DecidableEq

namespace Reader

/-- The reader at the start of a text. -/
def ofText (s : List Char) : Reader := ⟨[], s, s.head?⟩

/-- The text left of the place. -/
def start (r : Reader) : List Char := r.behind.reverse

/-- The whole text. -/
def text (r : Reader) : List Char := r.start ++ r.ahead

/-- How many characters are behind the place. -/
def offset (r : Reader) : Nat := r.behind.length

/-- Is nothing left to read? -/
def atEnd (r : Reader) : Bool := r.ahead.isEmpty

/-- Read one character; at the end there is none. -/
def next : Reader → Option Char × Reader
  | ⟨behind, [], _⟩ => (none, ⟨behind, [], none⟩)
  | ⟨behind, c :: ahead, _⟩ => (some c, ⟨c :: behind, ahead, some c⟩)

/-- Read `n` characters. -/
def advance : Nat → Reader → Reader
  | 0, r => r
  | n + 1, r => advance n r.next.2

/-- Read all that is left, until there is nothing more to read. -/
def drain (r : Reader) : List Char × Reader :=
  (r.ahead, ((r.advance r.ahead.length).next).2)

/-- The next character. -/
def peek (r : Reader) : Option Char := r.ahead.head?

/-- The character just behind the place. -/
def peekBack (r : Reader) : Option Char := r.behind.head?

/-- A look at a position outside the text. -/
inductive LookError
  | outOfRange
  deriving DecidableEq

/-- The character at a position of the text, where a negative one counts from the end. -/
def lookAt (r : Reader) (i : Int) : Except LookError (Option Char) :=
  match memberAt? r.text i with
  | some c => .ok (some c)
  | none => .error .outOfRange

/-- The character `n` places after the next one; there is none beyond the end. -/
def peekNth (r : Reader) (n : Int) : Except LookError (Option Char) :=
  if r.text.length ≤ r.offset + n then .ok none else r.lookAt (r.offset + n)

/-- The character `n` places before the one just behind; there is none before the start. -/
def peekNthBack (r : Reader) (n : Int) : Except LookError (Option Char) :=
  if r.offset - 1 - n < 0 then .ok none else r.lookAt (r.offset - 1 - n)

/-! ## Reading tokens -/

/-- Read on while the next character satisfies `keep`. -/
def skipWhile (keep : Char → Bool) (r : Reader) : Reader :=
  r.advance (r.ahead.takeWhile keep).length

/-- The character just read and what follows it up to the first that satisfies `stop`. -/
def dispatched (stop : Char → Bool) (r : Reader) : List Char × Reader :=
  (r.behind.head?.toList ++ r.ahead.takeWhile fun c => !stop c, r.skipWhile fun c => !stop c)

/-- A run of blanks of which the first character has been read. -/
def blankRun (r : Reader) : Token × Reader :=
  let (run, r') := r.dispatched fun c => !isBlank c
  (.blank run, r')

/-- A word of which the first character has been read. -/
def word (r : Reader) : Token × Reader :=
  let (content, r') := r.dispatched endsWord
  (.value (.word content), r')

/-- A quoted value of which the opening quote `q` has been read. -/
def quoted (q : Char) (r : Reader) : Token × Reader :=
  match splitAtClose q r.behind.head? r.ahead with
  | some (content, _) => (.value (.quoted q content), r.advance (content.length + 1))
  | none => (.value (.unclosed q r.ahead), r.advance r.ahead.length)

/-- Read the next token: its first character says of what kind it is. -/
def nextToken (r : Reader) : Option Token × Reader :=
  match r.next with
  | (none, r) => (none, r)
  | (some c, r) =>
    let (t, r) := if isQuote c then r.quoted c else if isBlank c then r.blankRun else r.word
    (some t, r)

/-! ## Moving never changes the text -/

@[simp] theorem text_ofText (s : List Char) : (ofText s).text = s := rfl

@[simp] theorem text_next (r : Reader) : r.next.2.text = r.text := by
  obtain ⟨behind, ahead, latest⟩ := r
  cases ahead <;> simp [next, text, start]

@[simp] theorem text_advance : ∀ (n : Nat) (r : Reader), (r.advance n).text = r.text
  | 0, _ => rfl
  | n + 1, r => by rw [advance, text_advance n, text_next]

theorem ahead_advance : ∀ (n : Nat) (r : Reader), (r.advance n).ahead = r.ahead.drop n
  | 0, _ => rfl
  | n + 1, ⟨behind, [], latest⟩ => by rw [advance, ahead_advance n]; simp [next]
  | n + 1, ⟨behind, c :: ahead, latest⟩ => by rw [advance, ahead_advance n]; simp [next]

theorem offset_advance : ∀ (n : Nat) (r : Reader),
    n ≤ r.ahead.length → (r.advance n).offset = r.offset + n
  | 0, _, _ => rfl
  | n + 1, ⟨behind, [], latest⟩, h => by simp at h
  | n + 1, ⟨behind, c :: ahead, latest⟩, h => by
      have h' : n ≤ ahead.length := by simpa using h
      rw [advance, offset_advance n _ (by simpa [next] using h')]
      simp only [next, offset, List.length_cons]
      omega

/-! ## The next token -/

/-- **The next token is the one `Token.read` gives**, and the reader moves behind its text. -/
theorem nextToken_cons (behind : List Char) (c : Char) (s : List Char) (latest : Option Char) :
    nextToken ⟨behind, c :: s, latest⟩ =
      (some (Token.read c s).1,
        advance (Token.read c s).1.text.length ⟨behind, c :: s, latest⟩) := by
  by_cases hq : isQuote c = true
  · have hb := isBlank_eq_false_of_isQuote hq
    cases hs : splitAtClose c (some c) s with
    | none =>
      simp [nextToken, next, quoted, Token.read, Value.read, hq, hb, hs, Token.text, Value.text,
        advance]
    | some p =>
      simp [nextToken, next, quoted, Token.read, Value.read, hq, hb, hs, Token.text, Value.text,
        advance]
  · by_cases hb : isBlank c = true
    · simp [nextToken, next, blankRun, dispatched, skipWhile, Token.read, hq, hb, Token.text,
        advance]
    · simp [nextToken, next, word, dispatched, skipWhile, Token.read, Value.read, splitWord, hq, hb,
        Token.text, Value.text, advance]

@[simp] theorem nextToken_nil (behind : List Char) (latest : Option Char) :
    nextToken ⟨behind, [], latest⟩ = (none, ⟨behind, [], none⟩) := rfl

end Reader

end ShellLine
