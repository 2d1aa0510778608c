/-!
# Text/CharSet — sets of characters given by ranges

Large sets of characters are written as ranges of code points, both ends included and in rising
order, so that a search can stop at the first range that begins above the character.
-/

namespace ShellLine

/-- Ranges of code points, both ends included, in rising order. -/
abbrev CharRanges := List (Nat × Nat)

/-- Does a code point lie in one of the ranges? -/
def CharRanges.covers : CharRanges → Nat → Bool
  | [], _ => false
  | (low, high) :: rs, n => if n < low then false else n ≤ high || covers rs n

/-- Does a character lie in one of the ranges? -/
def CharRanges.contains (rs : CharRanges) (c : Char) : Bool := rs.covers c.toNat

end ShellLine
