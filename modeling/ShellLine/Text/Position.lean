/-!
# Text/Position — signed positions in a list

A position counts from the front; a negative one counts from the end.  `cut` reads a position as a
place between two members, where every integer is allowed and what lies outside is moved to the
nearer end.  `memberAt?` reads it as the place of a member, where what lies outside is refused.
-/

namespace ShellLine

/-- The number of members in front of position `i` in a list of length `len`. -/
def cut (len : Nat) (i : Int) : Nat :=
  if i < 0 then (len + i).toNat else min i.toNat len

/-- The member at position `i`. -/
def memberAt? {α : Type} (l : List α) (i : Int) : Option α :=
  if i < 0 then
    if l.length + i < 0 then none else l[(l.length + i).toNat]?
  else l[i.toNat]?

theorem cut_le (len : Nat) (i : Int) : cut len i ≤ len := by
  unfold cut; split <;> omega

/-- A position inside the list cuts where it stands. -/
@[simp] theorem cut_natCast {len n : Nat} (h : n ≤ len) : cut len (n : Int) = n := by
  unfold cut; split <;> omega

end ShellLine
