import ShellLine.Fields
import ShellLine.Number.Double

/-!
# Json/Basic — values of JSON

A value of JSON with whole numbers and doubles kept apart, and objects that keep the order of
their keys.
-/

namespace ShellLine

/-- A value of JSON. -/
inductive Json
  | null
  | bool (b : Bool)
  | int (n : Int)
  | double (x : Double)
  | str (s : List Char)
  | arr (items : List Json)
  | obj (fields : List (List Char × Json))
  deriving Inhabited

namespace Json

/-- Does the value say nothing: null, false, zero, or an empty text, list or object? -/
def isVoid : Json → Bool
  | null => true
  | bool b => !b
  | int n => n == 0
  | double x => x.isZero
  | str s => s.isEmpty
  | arr items => items.isEmpty
  | obj fields => fields.isEmpty

/-- The fields of an object. -/
def fields? : Json → Option (Fields Json)
  | obj fields => some fields
  | _ => none

/-- Is the value null? -/
def isNull : Json → Bool
  | null => true
  | _ => false

end Json

end ShellLine
