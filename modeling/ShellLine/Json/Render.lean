import ShellLine.Json.Basic
import ShellLine.Number.Integer
import ShellLine.Text.Quoted

/-!
# Json/Render — writing JSON

A value is written without white space (`compact`), over several lines with an indent of two
(`pretty`), or as it is shown in messages (`shown`).  Only the double quote, the backslash and the
characters below U+0020 are escaped.  `isWritable` says whether a value can be written at all, which
numbers of too many digits prevent.
-/

namespace ShellLine.Json

mutual

/-- Can every whole number in a value be written? -/
def isWritable : Json → Bool
  | .int n => Integer.isWritable n
  | .arr items => areWritable items
  | .obj fields => areFieldsWritable fields
  | _ => true

/-- Can every whole number in some items be written? -/
def areWritable : List Json → Bool
  | [] => true
  | v :: vs => isWritable v && areWritable vs

/-- Can every whole number in some fields be written? -/
def areFieldsWritable : List (List Char × Json) → Bool
  | [] => true
  | (_, v) :: fs => isWritable v && areFieldsWritable fs

end

/-- A character inside a string. -/
def escapeChar (c : Char) : List Char :=
  if c = '\x22' ∨ c = '\x5c' then ['\x5c', c]
  else if c = '\n' then ['\x5c', 'n']
  else if c = '\r' then ['\x5c', 'r']
  else if c = '\t' then ['\x5c', 't']
  else if c = '\x08' then ['\x5c', 'b']
  else if c = '\x0c' then ['\x5c', 'f']
  else if c.toNat < 0x20 then '\x5c' :: 'u' :: Hex.padded 4 c.toNat
  else [c]

/-- A string with its quotes. -/
def quoteString (s : List Char) : List Char := '\x22' :: s.flatMap escapeChar ++ ['\x22']

/-- The words for the values that have a name. -/
structure ValueWords where
  null : List Char
  yes : List Char
  no : List Char
  infinity : List Char
  notANumber : List Char

/-- The words of JSON. -/
def jsonWords : ValueWords :=
  ⟨"null".toList, "true".toList, "false".toList, "Infinity".toList, "NaN".toList⟩

/-- The words of messages. -/
def messageWords : ValueWords :=
  ⟨"None".toList, "True".toList, "False".toList, "inf".toList, "nan".toList⟩

/-- A double. -/
def doubleText (w : ValueWords) : Double → List Char
  | .finite negative m q => Double.finiteText negative m q
  | .infinite negative => if negative then '-' :: w.infinity else w.infinity
  | .notANumber => w.notANumber

/-- A truth value. -/
def boolText (w : ValueWords) (b : Bool) : List Char := if b then w.yes else w.no

mutual

/-- A value without white space. -/
def compact : Json → List Char
  | .null => jsonWords.null
  | .bool b => boolText jsonWords b
  | .int n => Integer.text n
  | .double x => doubleText jsonWords x
  | .str s => quoteString s
  | .arr items => '[' :: compactItems items ++ [']']
  | .obj fields => '\x7b' :: compactFields fields ++ ['\x7d']

/-- Items with commas between them. -/
def compactItems : List Json → List Char
  | [] => []
  | [v] => compact v
  | v :: vs => compact v ++ ',' :: compactItems vs

/-- Fields with commas between them. -/
def compactFields : List (List Char × Json) → List Char
  | [] => []
  | [(k, v)] => quoteString k ++ ':' :: compact v
  | (k, v) :: fs => quoteString k ++ ':' :: compact v ++ ',' :: compactFields fs

end

/-- A new line and the indent of a depth. -/
def newline (depth : Nat) : List Char := '\n' :: List.replicate (2 * depth) ' '

mutual

/-- A value over several lines, each item and field on its own; `depth` is that of the value. -/
def prettyAt (depth : Nat) : Json → List Char
  | .null => jsonWords.null
  | .bool b => boolText jsonWords b
  | .int n => Integer.text n
  | .double x => doubleText jsonWords x
  | .str s => quoteString s
  | .arr [] => ['[', ']']
  | .arr items => '[' :: prettyItems (depth + 1) items ++ newline depth ++ [']']
  | .obj [] => ['\x7b', '\x7d']
  | .obj fields => '\x7b' :: prettyFields (depth + 1) fields ++ newline depth ++ ['\x7d']

/-- Items at a depth. -/
def prettyItems (depth : Nat) : List Json → List Char
  | [] => []
  | [v] => newline depth ++ prettyAt depth v
  | v :: vs => newline depth ++ prettyAt depth v ++ ',' :: prettyItems depth vs

/-- Fields at a depth. -/
def prettyFields (depth : Nat) : List (List Char × Json) → List Char
  | [] => []
  | [(k, v)] => newline depth ++ quoteString k ++ ':' :: ' ' :: prettyAt depth v
  | (k, v) :: fs =>
    newline depth ++ quoteString k ++ ':' :: ' ' :: prettyAt depth v ++ ',' ::
      prettyFields depth fs

end

/-- A value over several lines. -/
def pretty (v : Json) : List Char := prettyAt 0 v

mutual

/-- A value as shown in messages. -/
def shown : Json → List Char
  | .null => messageWords.null
  | .bool b => boolText messageWords b
  | .int n => Integer.text n
  | .double x => doubleText messageWords x
  | .str s => shownText s
  | .arr items => '[' :: shownItems items ++ [']']
  | .obj fields => '\x7b' :: shownFields fields ++ ['\x7d']

/-- Items with a comma and a space between them. -/
def shownItems : List Json → List Char
  | [] => []
  | [v] => shown v
  | v :: vs => shown v ++ ',' :: ' ' :: shownItems vs

/-- Fields with a comma and a space between them. -/
def shownFields : List (List Char × Json) → List Char
  | [] => []
  | [(k, v)] => shownText k ++ ':' :: ' ' :: shown v
  | (k, v) :: fs => shownText k ++ ':' :: ' ' :: shown v ++ ',' :: ' ' :: shownFields fs

end

end ShellLine.Json
