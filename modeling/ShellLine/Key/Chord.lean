import ShellLine.Key.Event
import ShellLine.Text.Lowercase

/-!
# Key/Chord — naming a key with its modifiers

A chord is a key and the modifiers held with it, written with plus signs: `ctrl+a`, `meta+left`,
`up`.  In reading, modifiers may come in any order, letter case and number, `control` stands for
`ctrl` and `alt` for `meta`, and a plus sign at the end is the plus key.

* `Chord.text` writes a chord in its one canonical way.
* `Chord.parse?` reads one, and `Chord.normalize?` turns any spelling into the canonical one.
-/

namespace ShellLine

/-- Modifiers and the name of a key. -/
structure Chord where
  mods : Modifiers
  base : List Char
  deriving DecidableEq

/-- The names of the modifiers that are held, in the order in which they are written. -/
def Modifiers.names (m : Modifiers) : List (List Char) :=
  (if m.ctrl then ["ctrl".toList] else []) ++ (if m.shift then ["shift".toList] else []) ++
    (if m.alt then ["meta".toList] else [])

/-- The modifier a name stands for, in small letters. -/
def Modifiers.ofName? (name : List Char) : Option Modifiers :=
  if name = "ctrl".toList ∨ name = "control".toList then some onlyCtrl
  else if name = "shift".toList then some onlyShift
  else if name = "meta".toList ∨ name = "alt".toList then some onlyAlt
  else none

namespace Chord

/-- The canonical spelling: modifiers first, each followed by a plus sign. -/
def text (c : Chord) : List Char := c.mods.names.flatMap (· ++ ['+']) ++ c.base

/-- The pieces of a text between plus signs: the first, and those that follow. -/
def pieces : List Char → List Char × List (List Char)
  | [] => ([], [])
  | c :: s =>
    let (first, others) := pieces s
    if c = '+' then ([], first :: others) else (c :: first, others)

/-- The modifiers that some names give together. -/
def modifiers? : List (List Char) → Option Modifiers
  | [] => some .empty
  | name :: names => do
    let m ← Modifiers.ofName? (lowercase name)
    let ms ← modifiers? names
    return m.union ms

/-- The names in front of a plus key, where `head` is all but that last plus sign. The plus sign
between the last name and the key leaves an empty piece. -/
def namesBeforePlus (head : List Char) : List (List Char) :=
  if head = [] then []
  else
    let (first, others) := pieces head
    let names := first :: others
    if names.getLast? = some [] then names.dropLast else names

/-- The name of a key as it is kept: a single character as it is, a longer name in small letters. -/
def keyName (base : List Char) : List Char := if 1 < base.length then lowercase base else base

/-- Read a chord. -/
def parse? (s : List Char) : Option Chord :=
  if s = [] then none
  else if s.getLast? = some '+' then
    (modifiers? (namesBeforePlus s.dropLast)).map fun m => ⟨m, ['+']⟩
  else
    let (first, others) := pieces s
    let names := first :: others
    (modifiers? names.dropLast).map fun m => ⟨m, keyName (names.getLast?.getD [])⟩

/-- The canonical spelling of a chord, if it can be read. -/
def normalize? (s : List Char) : Option (List Char) := (parse? s).map text

end Chord

/-- The chord of an event; all pastes have the same. -/
def Event.chord : Event → Chord
  | press key mods => ⟨mods, key.base⟩
  | paste _ => ⟨.empty, pasteKind⟩

/-- The name of the chord of an event. -/
def Event.keyId (e : Event) : List Char := e.chord.text

end ShellLine
