import ShellLine.Json.Basic

/-!
# Json/Merge — one object over another

Merging goes through two objects key by key.  Objects under the same key are merged; any other value
replaces what was there.  A null says nothing and is passed over, but only where the merge goes: an
object that replaces something is taken as it is.
-/

namespace ShellLine.Json

mutual

/-- A value over an older one. -/
def mergeValue (old : Option Json) : Json → Json
  | .obj fields =>
    match old with
    | some (.obj base) => .obj (mergeFields base fields)
    | _ => .obj fields
  | v => v

/-- The fields of an object over those of a base: old keys keep their place, new ones follow. -/
def mergeFields (base : Fields Json) : List (List Char × Json) → Fields Json
  | [] => base
  | (k, v) :: fs =>
    if v.isNull then mergeFields base fs
    else mergeFields (base.put k (mergeValue (base.get? k) v)) fs

end

end ShellLine.Json
