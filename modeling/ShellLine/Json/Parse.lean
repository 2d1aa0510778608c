import ShellLine.Json.Basic
import ShellLine.Number.Integer
import ShellLine.Text.Hex

/-!
# Json/Parse — reading JSON

A text is one value with white space around it.  An object that names a key twice keeps the first
place and the last value.  A number with a point or an exponent is a double, any other is whole;
the names `NaN`, `Infinity` and `-Infinity` are numbers too.  Reading goes from left to right and
stops at the first thing that is wrong: where the text is malformed, or where a whole number has
too many digits.

Texts are made of characters, and half a surrogate pair is none.  An escape of such a half that does
not meet its other half is outside of what is read here: it stands for U+FFFD, so texts that differ
in such escapes alone are read as one.  What is said of all files holds of them up to this.
-/

namespace ShellLine.Json

/-- Why a text cannot be read: it is no value of JSON, or a whole number has so many digits. -/
inductive ParseError
  | malformed
  | tooManyDigits (count : Nat)
  deriving DecidableEq

/-- A part of a value read off the front of a text, and what follows it. -/
abbrev Reading (α : Type) := Except ParseError (α × List Char)

/-- White space between the parts of a value. -/
def isSpace (c : Char) : Bool := c == ' ' || c == '\t' || c == '\n' || c == '\r'

/-- The text after white space. -/
def skipSpace (s : List Char) : List Char := s.dropWhile isSpace

/-! ## Strings -/

/-- The number that four digits in base sixteen give. -/
def unit? (a b c d : Char) : Option Nat := do
  let high := (← Hex.digit? a) * 16 + (← Hex.digit? b)
  let low := (← Hex.digit? c) * 16 + (← Hex.digit? d)
  return high * 256 + low

/-- The character that a letter after a backslash stands for. -/
def escaped? : Char → Option Char
  | '\x22' => some '\x22'
  | '\x5c' => some '\x5c'
  | '/' => some '/'
  | 'b' => some '\x08'
  | 'f' => some '\x0c'
  | 'n' => some '\n'
  | 'r' => some '\r'
  | 't' => some '\t'
  | _ => none

/-- Half of a pair that stands for one character beyond U+FFFF: the first or the second half. -/
def isHighHalf (n : Nat) : Bool := 0xd800 ≤ n && n ≤ 0xdbff

/-- The second half of such a pair. -/
def isLowHalf (n : Nat) : Bool := 0xdc00 ≤ n && n ≤ 0xdfff

/-- The character of a number. Half a pair alone is no character, and U+FFFD takes its place. -/
def charOfUnit (n : Nat) : Char :=
  if isHighHalf n || isLowHalf n then '\ufffd' else Char.ofNat n

/-- A piece of a string: a character as it stands, or the number of an escape. -/
inductive StringPiece
  | char (c : Char)
  | unit (n : Nat)

/-- The pieces of a string after its opening quote, and what follows its closing quote. -/
def stringPieces : List Char → Option (List StringPiece × List Char)
  | [] => none
  | '\x22' :: s => some ([], s)
  | '\x5c' :: 'u' :: a :: b :: c :: d :: s => do
    let n ← unit? a b c d
    let (ps, rest) ← stringPieces s
    return (.unit n :: ps, rest)
  | '\x5c' :: e :: s => do
    let c ← escaped? e
    let (ps, rest) ← stringPieces s
    return (.char c :: ps, rest)
  | c :: s =>
    if c.toNat < 0x20 ∨ c = '\x5c' then none
    else do
      let (ps, rest) ← stringPieces s
      return (.char c :: ps, rest)

/-- The text of some pieces, where two halves that stand together are one character. -/
def textOfPieces : List StringPiece → List Char
  | [] => []
  | .char c :: ps => c :: textOfPieces ps
  | .unit n :: .unit m :: ps =>
    if isHighHalf n && isLowHalf m then
      Char.ofNat (0x10000 + (n - 0xd800) * 0x400 + (m - 0xdc00)) :: textOfPieces ps
    else charOfUnit n :: textOfPieces (.unit m :: ps)
  | .unit n :: ps => charOfUnit n :: textOfPieces ps

/-- Read a string of which the opening quote has been read. -/
def string (s : List Char) : Reading (List Char) :=
  match stringPieces s with
  | some (ps, rest) => .ok (textOfPieces ps, rest)
  | none => .error .malformed

/-! ## Numbers -/

/-- Is the character a digit? -/
def isDigit (c : Char) : Bool := '0' ≤ c && c ≤ '9'

/-- The number of some digits. -/
def ofDigits (ds : List Char) : Nat := ds.foldl (fun n d => 10 * n + (d.toNat - 48)) 0

/-- Read the digits after a point; without a digit there is no point. -/
def fraction (s : List Char) : List Char × List Char :=
  match s with
  | '.' :: r =>
    if r.takeWhile isDigit = [] then ([], s) else (r.takeWhile isDigit, r.dropWhile isDigit)
  | _ => ([], s)

/-- Read the exponent after its sign. -/
def exponentDigits (negative : Bool) (s : List Char) : Option (Int × List Char) :=
  let ds := s.takeWhile isDigit
  if ds = [] then none
  else
    let n : Int := ofDigits ds
    some (if negative then -n else n, s.dropWhile isDigit)

/-- Read an exponent, if there is one. -/
def exponent? (s : List Char) : Option (Int × List Char) :=
  match s with
  | e :: r =>
    if e = 'e' ∨ e = 'E' then
      match r with
      | '-' :: r => exponentDigits true r
      | '+' :: r => exponentDigits false r
      | r => exponentDigits false r
    else none
  | [] => none

/-- The whole number that some digits give. -/
def wholeNumber (negative : Bool) (digits : List Char) : Except ParseError Json :=
  if Integer.maxDigits < digits.length then .error (.tooManyDigits digits.length)
  else
    let n : Int := ofDigits digits
    .ok (.int (if negative then -n else n))

/-- Read a number without its sign. -/
def number (negative : Bool) (s : List Char) : Reading Json :=
  let whole := match s with
    | '0' :: _ => ['0']
    | s => s.takeWhile isDigit
  if whole = [] then .error .malformed
  else
    let (places, rest) := fraction (s.drop whole.length)
    match places, exponent? rest with
    | [], none => (wholeNumber negative whole).map fun v => (v, rest)
    | _, found =>
      let (e, rest) := found.getD (0, rest)
      let digits := ofDigits (whole ++ places)
      .ok (.double (.ofDecimal negative digits (e - places.length)), rest)

/-- What follows a name, if the text begins with it. -/
def afterName? (name s : List Char) : Option (List Char) :=
  if name.isPrefixOf s then some (s.drop name.length) else none

/-- The names that stand for values. -/
def names : List (List Char × Json) :=
  [("null".toList, .null), ("true".toList, .bool true), ("false".toList, .bool false),
   ("NaN".toList, .double .notANumber), ("Infinity".toList, .double (.infinite false)),
   ("-Infinity".toList, .double (.infinite true))]

/-- Read a value that is neither a string, a list nor an object. -/
def scalar (s : List Char) : Reading Json :=
  match names.findSome? fun n => (afterName? n.1 s).map fun rest => (n.2, rest) with
  | some r => .ok r
  | none =>
    match s with
    | '-' :: s => number true s
    | s => number false s

/-! ## Values

The depth bounds how far values may be nested; a text is never nested deeper than it is long. -/

mutual

/-- Read a value of which the white space in front has been read. -/
def value : Nat → List Char → Reading Json
  | 0, _ => .error .malformed
  | depth + 1, s =>
    match s with
    | '\x22' :: s => (string s).map fun p => (.str p.1, p.2)
    | '[' :: s =>
      match skipSpace s with
      | ']' :: s => .ok (.arr [], s)
      | s => (items depth s).map fun p => (.arr p.1, p.2)
    | '\x7b' :: s =>
      match skipSpace s with
      | '\x7d' :: s => .ok (.obj [], s)
      | s => (entries depth s).map fun p => (.obj (Fields.ofList p.1), p.2)
    | s => scalar s

/-- Read the items of a list and its end. -/
def items : Nat → List Char → Reading (List Json)
  | 0, _ => .error .malformed
  | depth + 1, s =>
    match value depth s with
    | .error e => .error e
    | .ok (v, s) =>
      match skipSpace s with
      | ']' :: s => .ok ([v], s)
      | ',' :: s => (items depth (skipSpace s)).map fun p => (v :: p.1, p.2)
      | _ => .error .malformed

/-- Read the value of an entry after its key, the colon first. -/
def entryValue : Nat → List Char → Reading Json
  | 0, _ => .error .malformed
  | depth + 1, s =>
    match skipSpace s with
    | ':' :: s => value depth (skipSpace s)
    | _ => .error .malformed

/-- Read the entries of an object and its end. -/
def entries : Nat → List Char → Reading (List (List Char × Json))
  | 0, _ => .error .malformed
  | depth + 1, s =>
    match s with
    | '\x22' :: s =>
      match string s with
      | .error e => .error e
      | .ok (key, s) =>
        match entryValue depth s with
        | .error e => .error e
        | .ok (v, s) =>
          match skipSpace s with
          | '\x7d' :: s => .ok ([(key, v)], s)
          | ',' :: s => (entries depth (skipSpace s)).map fun p => ((key, v) :: p.1, p.2)
          | _ => .error .malformed
    | _ => .error .malformed

end

/-- Read a whole text. -/
def parse (s : List Char) : Except ParseError Json :=
  match value (s.length + 1) (skipSpace s) with
  | .ok (v, rest) => if (skipSpace rest).isEmpty then .ok v else .error .malformed
  | .error e => .error e

end ShellLine.Json
