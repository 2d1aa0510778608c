import ShellLine.Proofs.Text.Clusters
import ShellLine.Text.Unicode

/-!
# Proofs/Text/Unicode — what the tables of a running program keep to

The clusters are those of an automaton as it is documented (`isBreakAutomaton_breakStep`), the
characters of ASCII that can be printed have no special class and take one column, and no character
takes more than two.
-/

namespace ShellLine

namespace Unicode

theorem isBreakAutomaton_breakStep : IsBreakAutomaton breakStep where
  plain_other := rfl
  plain_return := rfl
  plain_control := by simp [breakStep, plainStep]
  plain_extend := by simp [breakStep, plainStep]
  plain_pictograph := rfl
  plain_regional := rfl
  plain_leading := rfl
  plain_vowel := by simp [breakStep, plainStep]
  plain_trailing := by simp [breakStep, plainStep]
  plain_prepend := rfl
  return_row k := by cases k <;> rfl
  control_row k := by cases k <;> rfl
  prepend_row k := by cases k <;> rfl
  leading_row k := by cases k <;> rfl
  vowel_row k := by cases k <;> rfl
  trailing_row k := by cases k <;> rfl
  pictograph_row k := by cases k <;> rfl
  joiner_row k := by cases k <;> rfl
  regional_row k := by cases k <;> rfl

/-- A plain character has no special class. -/
theorem graphemeClass_of_isPlain {c : Char} (h : isPlain c = true) : graphemeClass c = .other :=
  if_pos (isPlain_iff.1 h)

/-- A plain character takes one column. -/
theorem charColumns_of_isPlain {c : Char} (h : isPlain c = true) : charColumns c = 1 := by
  have hcontrol := not_isControl_of_isPlain h
  rw [isPlain_iff] at h
  simp only [charColumns]
  rw [if_neg (by omega), if_neg hcontrol, if_pos (by omega)]

theorem charColumns_le (c : Char) : charColumns c ≤ 2 := by
  simp only [charColumns]
  split_ifs <;> decide

end Unicode

end ShellLine
