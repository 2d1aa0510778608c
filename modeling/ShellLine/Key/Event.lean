import ShellLine.Text.Hex

/-!
# Key/Event — keys, modifiers, and what a terminal reports

A terminal reports the press of a key, with modifiers, or the paste of a text.  A key is one of the
named keys or a character; names beyond the known ones are kept as they are.

* `Event.make?` builds an event from loose parts and says what is wrong with them.
* `Modifiers.ofBits_bits` says that the bits of modifiers tell them apart.
-/

namespace ShellLine

/-- The modifiers held down with a key; alt is written `meta`. -/
structure Modifiers where
  shift : Bool
  alt : Bool
  ctrl : Bool
  deriving DecidableEq, Inhabited

namespace Modifiers

/-- No modifier. -/
def empty : Modifiers := ⟨false, false, false⟩

/-- Only shift. -/
def onlyShift : Modifiers := ⟨true, false, false⟩

/-- Only alt. -/
def onlyAlt : Modifiers := ⟨false, true, false⟩

/-- Only ctrl. -/
def onlyCtrl : Modifiers := ⟨false, false, true⟩

/-- Is no modifier held? -/
def isEmpty (m : Modifiers) : Bool := m == empty

/-- The modifiers of either. -/
def union (a b : Modifiers) : Modifiers := ⟨a.shift || b.shift, a.alt || b.alt, a.ctrl || b.ctrl⟩

/-- The modifiers as bits: shift is one, alt two, ctrl four. -/
def bits (m : Modifiers) : Nat := m.shift.toNat + 2 * m.alt.toNat + 4 * m.ctrl.toNat

/-- The modifiers whose bits are set; other bits say nothing. -/
def ofBits (n : Int) : Modifiers := ⟨n % 2 == 1, n / 2 % 2 == 1, n / 4 % 2 == 1⟩

@[simp] theorem ofBits_bits (m : Modifiers) : ofBits m.bits = m := by
  obtain ⟨_ | _, _ | _, _ | _⟩ := m <;> rfl

theorem bits_lt (m : Modifiers) : m.bits < 8 := by
  obtain ⟨_ | _, _ | _, _ | _⟩ := m <;> decide

/-- Modifiers with the same bits are the same. -/
theorem bits_injective {a b : Modifiers} (h : a.bits = b.bits) : a = b := by
  rw [← ofBits_bits a, h, ofBits_bits]

end Modifiers

/-- A key: one of those with a name, a character, or one with a name of its own. -/
inductive Key
  | up | down | left | right | backspace | delete | home | endKey | space
  | char (c : Char)
  | other (name : List Char)
  deriving DecidableEq, Inhabited

namespace Key

/-- The keys with a name. -/
def named : List Key := [up, down, left, right, backspace, delete, home, endKey, space]

/-- The name of a key; all characters share one. -/
def kind : Key → List Char
  | up => "up".toList
  | down => "down".toList
  | left => "left".toList
  | right => "right".toList
  | backspace => "backspace".toList
  | delete => "delete".toList
  | home => "home".toList
  | endKey => "end".toList
  | space => "space".toList
  | char _ => "key".toList
  | other name => name

/-- The key with a name. -/
def ofKind (name : List Char) : Key := (named.find? fun k => k.kind == name).getD (other name)

/-- The character of a key. -/
def char? : Key → Option Char
  | char c => some c
  | _ => none

/-- What a key is called in a chord: a character is called itself. -/
def base : Key → List Char
  | char c => [c]
  | k => k.kind

end Key

/-- What a terminal reports: the press of a key or the paste of a text. -/
inductive Event
  | press (key : Key) (mods : Modifiers)
  | paste (text : List Char)
  deriving DecidableEq, Inhabited

/-- What is wrong with the parts of an event. -/
inductive EventError
  | unknownModifiers (bits : Int)
  | pasteWithModifiers
  | pasteWithoutText
  | textNotAllowed (kind : List Char)
  | characterNeeded
  | characterNotAllowed (kind : List Char)
  deriving DecidableEq

/-- The wording of the error. -/
def EventError.message : EventError → List Char
  | unknownModifiers bits =>
    "Unknown modifier bits: ".toList ++ (if bits < 0 then ['-'] else []) ++ '0' :: 'x' ::
      Hex.ofNat bits.natAbs
  | pasteWithModifiers => "Paste events cannot carry modifiers".toList
  | pasteWithoutText => "Paste events need text".toList
  | textNotAllowed kind => kind ++ " events cannot carry text".toList
  | characterNeeded => "Key events need exactly one character".toList
  | characterNotAllowed kind => kind ++ " events cannot carry a character".toList

namespace Event

/-- The name of an event of paste. -/
def pasteKind : List Char := "paste".toList

/-- The name that all characters share. -/
def charKind : List Char := "key".toList

/-- The name of the event: that of its key, or of a paste. -/
def kind : Event → List Char
  | press key _ => key.kind
  | paste _ => pasteKind

/-- The character of the key. -/
def char? : Event → Option Char
  | press key _ => key.char?
  | paste _ => none

/-- The text of a paste. -/
def text? : Event → Option (List Char)
  | press _ _ => none
  | paste text => some text

/-- The modifiers held with the key. -/
def mods : Event → Modifiers
  | press _ mods => mods
  | paste _ => .empty

/-- Build a paste, which carries a text and nothing else. -/
def makePaste? (char? text? : Option (List Char)) (bits : Int) : Except EventError Event :=
  if bits ≠ 0 then .error .pasteWithModifiers
  else
    match text?, char? with
    | none, _ => .error .pasteWithoutText
    | some _, some _ => .error (.characterNotAllowed pasteKind)
    | some text, none => .ok (paste text)

/-- Build the press of a key. The name for characters needs exactly one; others carry none. -/
def makePress? (kind : List Char) (char? text? : Option (List Char)) (bits : Int) :
    Except EventError Event :=
  if text?.isSome then .error (.textNotAllowed kind)
  else if kind = charKind then
    match char? with
    | some [c] => .ok (press (.char c) (.ofBits bits))
    | _ => .error .characterNeeded
  else if char?.isSome then .error (.characterNotAllowed kind)
  else .ok (press (.ofKind kind) (.ofBits bits))

/-- Build an event from a name, a character, a text and the bits of modifiers. -/
def make? (kind : List Char) (char? text? : Option (List Char)) (bits : Int) :
    Except EventError Event :=
  if bits < 0 ∨ 7 < bits then .error (.unknownModifiers bits)
  else if kind = pasteKind then makePaste? char? text? bits
  else makePress? kind char? text? bits

end Event

end ShellLine
