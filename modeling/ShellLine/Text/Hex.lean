/-!
# Text/Hex — bytes and numbers in base sixteen

Bytes are written as two small digits each.  Reading takes either letter case and lets white space
stand around the pairs, but not inside one.
-/

namespace ShellLine.Hex

/-- The value of a digit. -/
def digit? (c : Char) : Option Nat :=
  let n := c.toNat
  if 48 ≤ n ∧ n ≤ 57 then some (n - 48)
  else if 97 ≤ n ∧ n ≤ 102 then some (n - 87)
  else if 65 ≤ n ∧ n ≤ 70 then some (n - 55)
  else none

/-- The digits of a number. -/
def ofNat (n : Nat) : List Char := Nat.toDigits 16 n

/-- The digits of a number, with zeros in front up to a width. -/
def padded (width n : Nat) : List Char :=
  List.replicate (width - (ofNat n).length) '0' ++ ofNat n

/-- The digits of some bytes. -/
def encode (s : List UInt8) : List Char := s.flatMap fun b => padded 2 b.toNat

/-- White space of ASCII. -/
def isSpace (c : Char) : Bool := (9 ≤ c.toNat && c.toNat ≤ 13) || c == ' '

/-- The bytes a text gives. -/
def decode? : List Char → Option (List UInt8)
  | [] => some []
  | [c] => if isSpace c then some [] else none
  | c :: d :: s =>
    if isSpace c then decode? (d :: s)
    else
      match digit? c, digit? d with
      | some high, some low => (decode? s).map (UInt8.ofNat (16 * high + low) :: ·)
      | _, _ => none

end ShellLine.Hex
