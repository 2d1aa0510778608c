import ShellLine.Command.Basic
import ShellLine.Number.Integer
import ShellLine.Text.Position
import ShellLine.Text.Quoted
import ShellLine.Text.Width

/-!
# Line/Basic — a line of text that is being edited

A line is a text and a cursor.  Motion stops at the ends of the text, or at the boundaries of
words.

The cursor is an integer, since counts may be negative; `start` and `rest` read such a cursor as
`cut` does.

* `start_append_rest` says that the two sides of the cursor always make up the text.
* `start_eq_take` and `rest_eq_drop` give them for a cursor inside the line.
-/

namespace ShellLine

/-- A line of text with a cursor. -/
structure Line where
  text : List Char
  cursor : Int
  deriving DecidableEq

namespace Line

/-- The empty line. -/
def empty : Line := ⟨[], 0⟩

instance : Inhabited Line := ⟨empty⟩

/-- A text with the cursor at its start. -/
def ofText (s : List Char) : Line := ⟨s, 0⟩

/-! ## Views -/

/-- The length of the text. -/
def length (l : Line) : Nat := l.text.length

/-- Is there no text? -/
def isEmpty (l : Line) : Bool := l.text.isEmpty

/-- Is the cursor at the start? -/
def atStart (l : Line) : Bool := l.cursor == 0

/-- Is the cursor at the end? -/
def atEnd (l : Line) : Bool := l.cursor == l.length

/-- The text in front of a position. -/
def before (l : Line) (i : Int) : List Char := l.text.take (cut l.length i)

/-- The text from a position on. -/
def after (l : Line) (i : Int) : List Char := l.text.drop (cut l.length i)

/-- The text left of the cursor. -/
def start (l : Line) : List Char := l.before l.cursor

/-- The text right of the cursor. -/
def rest (l : Line) : List Char := l.after l.cursor

/-- The first character. -/
def firstChar? (l : Line) : Option Char := l.text.head?

/-- The last character. -/
def lastChar? (l : Line) : Option Char := l.text.getLast?

/-- Is the last character a plain space? -/
def endsWithSpace (l : Line) : Bool := l.lastChar? == some ' '

/-- How many characters lie between the cursor and the end. -/
def shift (l : Line) : Int := l.length - l.cursor

/-- How many columns the text right of the cursor takes. -/
def shiftWidth [Typography] (l : Line) : Nat := columns l.rest

/-- The command the line holds. -/
def command (l : Line) : Command := Command.parse l.text

/-- The line as shown in messages. -/
def shown (l : Line) : List Char :=
  "Edit(".toList ++ shownText l.text ++ ", cursor=".toList ++ Integer.text l.cursor ++ [')']

@[simp] theorem start_append_rest (l : Line) : l.start ++ l.rest = l.text :=
  List.take_append_drop ..

/-- A cursor inside the line stands where it says. -/
theorem start_eq_take {s : List Char} {n : Nat} (h : n ≤ s.length) :
    start ⟨s, n⟩ = s.take n :=
  congrArg s.take (cut_natCast h)

theorem rest_eq_drop {s : List Char} {n : Nat} (h : n ≤ s.length) :
    rest ⟨s, n⟩ = s.drop n :=
  congrArg s.drop (cut_natCast h)

/-! ## Motion -/

/-- Move to the start. -/
def toStart (l : Line) : Line := { l with cursor := 0 }

/-- Move to the end. -/
def toEnd (l : Line) : Line := { l with cursor := l.length }

/-- Move back by `n` characters, no further than the start. -/
def back (l : Line) (n : Int) : Line := { l with cursor := max (l.cursor - n) 0 }

/-- Move on by `n` characters, no further than the end. -/
def forward (l : Line) (n : Int) : Line := { l with cursor := min (l.cursor + n) l.length }

/-- The length of the longest beginning of a text that is empty or ends with a boundary. -/
def lastStop (boundary : Char → Bool) (s : List Char) : Nat :=
  (s.reverse.dropWhile fun c => !boundary c).length

/-- Move back to just behind a boundary, or to the start. The character left of the cursor is
passed over, so that moving again goes on. -/
def backWord (l : Line) (boundary : Char → Bool) : Line :=
  { l with cursor := lastStop boundary l.start.dropLast }

/-- Move on to just behind a boundary, or to the end. The character at the cursor is passed over. -/
def forwardWord (l : Line) (boundary : Char → Bool) : Line :=
  match (l.rest.drop 1).findIdx? boundary with
  | some i => l.forward (i + 2)
  | none => l.toEnd

end Line

/-- The boundaries of words when nothing else is set. -/
def defaultWordChars : List Char := "/[&.;!]\x7d:\"| ".toList

end ShellLine
