/-!
# Text/Utf8 — characters as bytes

One scanner reads a character off the front of some bytes.  Where the bytes are no character it
takes the longest piece that could have begun one, at least a byte.  `Utf8.decode?` refuses a text
with such a piece, `Utf8.decodeLossy` puts the replacement character in its place.
-/

namespace ShellLine.Utf8

/-- The bytes of a character. -/
def encodeChar (c : Char) : List UInt8 := String.utf8EncodeChar c

/-- The bytes of a text. -/
def encode (s : List Char) : List UInt8 := s.flatMap encodeChar

/-- How many bytes a character has that begins with `lead`; one for a byte that begins none. -/
def length (lead : UInt8) : Nat :=
  if lead < 0x80 then 1
  else if 0xc2 ≤ lead ∧ lead ≤ 0xdf then 2
  else if 0xe0 ≤ lead ∧ lead ≤ 0xef then 3
  else if 0xf0 ≤ lead ∧ lead ≤ 0xf4 then 4
  else 1

/-- Read `n` bytes that continue a character whose bits so far are `bits`; the next of them lies
between `low` and `high`. -/
def continued : Nat → Nat → UInt8 → UInt8 → List UInt8 → Option Char × List UInt8
  | 0, bits, _, _, s => (some (Char.ofNat bits), s)
  | _ + 1, _, _, _, [] => (none, [])
  | n + 1, bits, low, high, b :: s =>
    if low ≤ b ∧ b ≤ high then continued n (bits * 64 + b.toNat % 64) 0x80 0xbf s
    else (none, b :: s)

/-- Read the character that begins with `lead`, where `s` follows `lead`. The bounds of the second
byte keep out longer spellings of a short character, surrogates, and what is beyond U+10FFFF. -/
def read (lead : UInt8) (s : List UInt8) : Option Char × List UInt8 :=
  if lead < 0x80 then (some (Char.ofNat lead.toNat), s)
  else match length lead with
    | 2 => continued 1 (lead.toNat % 32) 0x80 0xbf s
    | 3 =>
      continued 2 (lead.toNat % 16) (if lead = 0xe0 then 0xa0 else 0x80)
        (if lead = 0xed then 0x9f else 0xbf) s
    | 4 =>
      continued 3 (lead.toNat % 8) (if lead = 0xf0 then 0x90 else 0x80)
        (if lead = 0xf4 then 0x8f else 0xbf) s
    | _ => (none, s)

theorem length_continued : ∀ (n bits : Nat) (low high : UInt8) (s : List UInt8),
    (continued n bits low high s).2.length ≤ s.length
  | 0, _, _, _, _ => Nat.le_refl _
  | _ + 1, _, _, _, [] => Nat.le_refl _
  | n + 1, bits, low, high, b :: s => by
      have ih := length_continued n (bits * 64 + b.toNat % 64) 0x80 0xbf s
      unfold continued
      split
      · simp only [List.length_cons]; omega
      · exact Nat.le_refl _

theorem length_read (lead : UInt8) (s : List UInt8) : (read lead s).2.length ≤ s.length := by
  unfold read
  split
  · exact Nat.le_refl _
  · split <;> first | exact length_continued .. | exact Nat.le_refl _

/-- The characters of some bytes, `none` for each piece that is no character. -/
def scan : List UInt8 → List (Option Char)
  | [] => []
  | b :: s => (read b s).1 :: scan (read b s).2
termination_by s => s.length
decreasing_by
  have := length_read b s
  simp only [List.length_cons]
  omega

/-- The text of some bytes, if they are one. -/
def decode? (s : List UInt8) : Option (List Char) := (scan s).mapM id

/-- The text of some bytes, with U+FFFD for each piece that is no character. -/
def decodeLossy (s : List UInt8) : List Char := (scan s).map fun c => c.getD '\ufffd'

end ShellLine.Utf8
