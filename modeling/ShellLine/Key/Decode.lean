import ShellLine.Key.Event
import ShellLine.Text.Printable
import ShellLine.Text.Utf8

/-!
# Key/Decode — what the bytes of one key mean

A terminal sends one byte, one character, or a sequence that begins with the escape byte.  Here the
bytes of one key are turned into an event.  Bytes that mean nothing give none.
-/

namespace ShellLine

/-- The escape byte. -/
def escByte : UInt8 := 0x1b

/-- What a terminal sends in front of a paste: escape and `[200~`. -/
def pasteStart : List UInt8 := [0x1b, 0x5b, 0x32, 0x30, 0x30, 0x7e]

/-- What a terminal sends after a paste: escape and `[201~`. -/
def pasteEnd : List UInt8 := [0x1b, 0x5b, 0x32, 0x30, 0x31, 0x7e]

namespace Decode

/-- The letter of a control byte: 1 is `a`, 26 is `z`. -/
def ctrlLetter (b : UInt8) : Char := Char.ofNat (0x60 + b.toNat)

/-- Is the byte a printable character of ASCII other than the space? -/
def isGraphic (b : UInt8) : Bool := 0x21 ≤ b && b ≤ 0x7e

/-- One byte on its own. -/
def byte? (b : UInt8) : Option Event :=
  if b ≤ 0x1a then some (.press (.char (ctrlLetter b)) .onlyCtrl)
  else if b = 0x7f then some (.press .backspace .empty)
  else if b = 0x20 then some (.press .space .empty)
  else if isGraphic b then some (.press (.char (Char.ofNat b.toNat)) .empty)
  else none

/-- One byte after the escape byte, which stands for alt. -/
def altByte? (b : UInt8) : Option Event :=
  if isGraphic b then some (.press (.char (Char.ofNat b.toNat)) .onlyAlt)
  else if b = 0x7f then some (.press .backspace .onlyAlt)
  else if b = 0x20 then some (.press .space .onlyAlt)
  else if 1 ≤ b ∧ b ≤ 0x1a then
    some (.press (.char (ctrlLetter b)) (Modifiers.onlyCtrl.union .onlyAlt))
  else none

/-- The printable character that some bytes are. -/
def printable? (data : List UInt8) : Option Char :=
  match Utf8.decode? data with
  | some [c] => if isPrintable c then some c else none
  | _ => none

/-- One character. -/
def char? (data : List UInt8) : Option Event :=
  (printable? data).map fun c =>
    if c = ' ' then .press .space .empty else .press (.char c) .empty

/-- The keys of the letter that ends a short sequence. -/
def letterKey? (b : UInt8) : Option Key :=
  if b = 0x41 then some .up
  else if b = 0x42 then some .down
  else if b = 0x43 then some .right
  else if b = 0x44 then some .left
  else if b = 0x48 then some .home
  else if b = 0x46 then some .endKey
  else none

/-- The keys of the digit in front of a tilde. -/
def digitKey? (b : UInt8) : Option Key :=
  if b = 0x31 ∨ b = 0x37 then some .home
  else if b = 0x34 ∨ b = 0x38 then some .endKey
  else if b = 0x33 then some .delete
  else none

/-- The modifiers of the digit after a semicolon. The digits 2 and 5 both stand for shift alone. -/
def digitModifiers? (b : UInt8) : Option Modifiers :=
  if b = 0x32 then some .onlyShift
  else if b = 0x33 then some .onlyAlt
  else if b = 0x34 then some ⟨true, true, false⟩
  else if b = 0x35 then some .onlyShift
  else if b = 0x36 then some ⟨true, false, true⟩
  else if b = 0x37 then some ⟨false, true, true⟩
  else if b = 0x38 then some ⟨true, true, true⟩
  else none

/-- A key with modifiers: `1;mX` with a letter `X`, or `3;m~`. -/
def modifiedKey? (digit m final : UInt8) : Option Event := do
  let mods ← digitModifiers? m
  if digit = 0x31 then
    let key ← letterKey? final
    return .press key mods
  else if digit = 0x33 ∧ final = 0x7e then return .press .delete mods
  else none

/-- Does the byte introduce a sequence: is it `[` or `O`? -/
def isIntroducer (b : UInt8) : Bool := b == 0x5b || b == 0x4f

/-- What follows the escape byte: a byte or character that stands for alt, or a sequence. -/
def afterEscape? : List UInt8 → Option Event
  | [] => none
  | [b] => if isIntroducer b then none else altByte? b
  | b :: s =>
    if 0x80 ≤ b then (printable? (b :: s)).map fun c => .press (.char c) .onlyAlt
    else
      match s with
      | [x] => if isIntroducer b then (letterKey? x).map (.press · .empty) else none
      | [x, y] => if b = 0x5b ∧ y = 0x7e then (digitKey? x).map (.press · .empty) else none
      | [x, y, m, f] => if b = 0x5b ∧ y = 0x3b then modifiedKey? x m f else none
      | _ => none

/-- The bytes between the two marks of a paste. -/
def pasted? (data : List UInt8) : Option (List UInt8) :=
  if 12 ≤ data.length ∧ pasteStart.isPrefixOf data ∧ pasteEnd.isSuffixOf data then
    some ((data.drop 6).take (data.length - 12))
  else none

end Decode

/-- The event that the bytes of one key are. -/
def decode (data : List UInt8) : Option Event :=
  match Decode.pasted? data with
  | some body => some (.paste (Utf8.decodeLossy body))
  | none =>
    match data with
    | [] => none
    | [b] => Decode.byte? b
    | b :: s => if b = escByte then Decode.afterEscape? s else Decode.char? (b :: s)

end ShellLine
