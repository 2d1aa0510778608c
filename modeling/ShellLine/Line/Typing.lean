import ShellLine.Line.Basic

/-!
# Line/Typing — typing and deleting at the cursor

Typing and deleting know about quotes and blanks.  A quote that is typed in front of the one that
closes the same value steps over it; a blank next to a run of blanks is dropped; deleting between
two quotes of a kind takes both.

* `Line.insert` types a character, `Line.insertText` a text.
* `Line.remove` and `Line.removeNext` delete a character, `Line.removeWord` and `Line.removeEnd`
  what is right of the cursor.
-/

namespace ShellLine

namespace Line

/-! ## Typing -/

/-- Does typing the quote `q` step over the character at the cursor: does that close the value left
of the cursor? -/
def stepsOver (l : Line) (q : Char) : Bool :=
  (lastToken? l.start).bind Token.quote? == some q && l.rest.head? == some q

/-- Does a run of blanks already end or begin at the cursor? -/
def besideBlank (l : Line) : Bool :=
  (lastToken? l.start).any Token.isBlankRun || (firstToken? l.rest).any Token.isBlankRun

/-- Put a character at the cursor and move behind it. -/
def put (l : Line) (c : Char) : Line :=
  Line.forward ⟨l.start ++ c :: l.rest, l.cursor⟩ 1

/-- Type a character. -/
def insert (l : Line) (c : Char) : Line :=
  if isQuote c then if l.stepsOver c then l.forward 1 else l.put c
  else if isBlank c then if l.besideBlank then l else l.put c
  else l.put c

/-- Type the characters of a text one after the other. -/
def insertText (l : Line) (s : List Char) : Line := s.foldl insert l

/-- The text given where one character is needed. -/
structure NotOneCharacter where
  text : List Char
  deriving DecidableEq

/-- The wording of the error. -/
def NotOneCharacter.message (e : NotOneCharacter) : List Char :=
  "insert expects a single character, got ".toList ++ shownText e.text

/-- Type a text that has to be one character. -/
def insertOne? (l : Line) : List Char → Except NotOneCharacter Line
  | [c] => .ok (l.insert c)
  | s => .error ⟨s⟩

/-! ## Deleting -/

/-- Delete the character left of the cursor and move back. -/
def deleteBack (l : Line) : Line :=
  let text :=
    if l.isEmpty || l.atEnd then l.text.dropLast
    else if 0 < l.cursor then l.before (l.cursor - 1) ++ l.rest
    else l.text
  Line.back ⟨text, l.cursor⟩ 1

/-- Does the cursor stand between two quotes of a kind? -/
def betweenQuotes (l : Line) : Bool :=
  match l.start.getLast?, l.rest.head? with
  | some a, some b => a == b && isQuote b
  | _, _ => false

/-- Delete the character left of the cursor; between two quotes of a kind, delete both. -/
def remove (l : Line) : Line :=
  if l.betweenQuotes then (l.forward 1).deleteBack.deleteBack else l.deleteBack

/-- Delete the character at the cursor. -/
def removeNext (l : Line) : Line :=
  if l.cursor < l.length then { l with text := l.start ++ l.after (l.cursor + 1) } else l

/-- Delete what is right of the cursor. -/
def removeEnd (l : Line) : Line := { l with text := l.start }

/-- Move back by a word and delete what is right of the cursor. -/
def removeWord (l : Line) (boundary : Char → Bool) : Line := (l.backWord boundary).removeEnd

/-- Delete what is right of the cursor and move to the end. -/
def clearEnd (l : Line) : Line := l.removeEnd.toEnd

/-- Delete all. -/
def clear (_ : Line) : Line := empty

end Line

end ShellLine
