import Mathlib.Data.List.Basic
import ShellLine.Editor.History

/-!
# Proofs/Editor/History — what a history keeps, and where its position may stand

* `trim_eq_cutTo` says that a limit keeps the newest entries: `cutTo` is a beginning of the list.
* `IsSound` is what steps and pushes keep up: the position stands on an entry or at the line that
  is being typed, no entry is empty, and there are no more of them than the limit allows.
-/

namespace ShellLine

namespace History

/-! ## Limits -/

/-- As many members of a list, from its beginning on, as a limit allows. -/
def cutTo {α : Type} (limit? : Option Int) (l : List α) : List α :=
  match limit? with
  | none => l
  | some m => l.take m.toNat

@[simp] theorem cutTo_nil {α : Type} (limit? : Option Int) : cutTo limit? ([] : List α) = [] := by
  cases limit? with
  | none => rfl
  | some m => exact List.take_nil

/-- What a limit cuts away is cut away no matter what comes in front. -/
theorem cutTo_append_cutTo {α : Type} (limit? : Option Int) (xs ys : List α) :
    cutTo limit? (xs ++ cutTo limit? ys) = cutTo limit? (xs ++ ys) := by
  cases limit? with
  | none => rfl
  | some m =>
    rw [cutTo, cutTo, cutTo, List.take_append, List.take_append, List.take_take,
      Nat.min_eq_left (Nat.sub_le ..)]

theorem cutTo_sublist {α : Type} (limit? : Option Int) (l : List α) :
    (cutTo limit? l).Sublist l := by
  cases limit? with
  | none => exact List.Sublist.refl l
  | some m => exact List.take_sublist m.toNat l

/-- A limit that is not negative keeps the newest entries. -/
theorem trim_eq_cutTo {limit? : Option Int} (hlimit : ∀ m ∈ limit?, 0 ≤ m)
    (entries : List (List Char)) : trim limit? entries = cutTo limit? entries := by
  cases limit? with
  | none => rfl
  | some m =>
    have hm : 0 ≤ m := hlimit m rfl
    rw [trim, cutTo]
    split
    next hlt => rw [cut, if_neg (Int.not_lt.2 hm), Nat.min_eq_left (by omega)]
    next hle => rw [List.take_of_length_le (by omega)]

theorem length_cutTo_le {α : Type} {limit? : Option Int} (hlimit : ∀ m ∈ limit?, 0 ≤ m)
    (l : List α) : ∀ m ∈ limit?, ((cutTo limit? l).length : Int) ≤ m := by
  rintro m rfl
  have hm : 0 ≤ m := hlimit m rfl
  rw [cutTo, List.length_take]
  omega

/-- No limit brings in an entry. -/
theorem trim_subset (limit? : Option Int) (entries : List (List Char)) :
    trim limit? entries ⊆ entries := by
  rw [trim.eq_def]
  split
  next => exact List.Subset.refl _
  next =>
    split
    next => exact List.take_subset _ _
    next => exact List.Subset.refl _

/-! ## Pushing and stepping -/

variable {h : History}

@[simp] theorem limit?_push (h : History) (line : List Char) :
    (h.push line).limit? = h.limit? := by
  rw [push]
  split <;> rfl

@[simp] theorem push_nil (h : History) : h.push [] = h := rfl

/-- At the line that is being typed there is nothing newer. -/
theorem newer_of_position (hzero : h.position = 0) : h.newer = h := by
  obtain ⟨entries, position, limit?⟩ := h
  obtain rfl : position = 0 := hzero
  rfl

theorem push_of_ne_nil {line : List Char} (hline : line ≠ []) :
    h.push line = ⟨trim h.limit? (line :: h.entries), 0, h.limit?⟩ :=
  if_neg (by rwa [List.isEmpty_iff])

/-- What is kept was entered. -/
theorem mem_entries_push {line s : List Char} (hs : s ∈ (h.push line).entries) :
    s = line ∨ s ∈ h.entries := by
  rcases eq_or_ne line [] with rfl | hline
  · exact .inr hs
  · rw [push_of_ne_nil hline] at hs
    exact List.mem_cons.1 (trim_subset _ _ hs)

@[simp] theorem position_older_le (h : History) : h.older.position ≤ h.entries.length :=
  Nat.min_le_right ..

theorem position_newer_le (hle : h.position ≤ h.entries.length) :
    h.newer.position ≤ h.entries.length :=
  Nat.le_trans (Nat.sub_le ..) hle

/-- At the line that is being typed no entry is recalled. -/
theorem current?_of_position (hzero : h.position = 0) : h.current? = none :=
  if_pos hzero

/-- A history that stands on one of its entries has it. -/
theorem exists_current? (hpos : 0 < h.position) (hle : h.position ≤ h.entries.length) :
    ∃ entry, h.entries[h.position - 1]? = some entry ∧ h.current? = some entry := by
  have hentry := List.getElem?_eq_getElem (show h.position - 1 < h.entries.length by omega)
  refine ⟨_, hentry, ?_⟩
  rw [current?, if_neg (Nat.ne_of_gt hpos), hentry]

/-- What is recalled was kept. -/
theorem mem_entries_of_current? {s : List Char} (hs : h.current? = some s) : s ∈ h.entries := by
  rw [current?] at hs
  split at hs
  · cases hs
  · exact List.mem_of_getElem? hs

/-- Does the history stand on an entry that it does not have? -/
def IsDangling (h : History) : Prop := h.position ≠ 0 ∧ h.current? = none

/-- A position on one of the entries has it. -/
theorem not_isDangling_of_le (hle : h.position ≤ h.entries.length) : ¬h.IsDangling := by
  rintro ⟨hne, hnone⟩
  obtain ⟨entry, -, hcurrent⟩ := exists_current? (Nat.pos_of_ne_zero hne) hle
  rw [hcurrent] at hnone
  cases hnone

/-- What a history keeps up. -/
structure IsSound (h : History) : Prop where
  position_le : h.position ≤ h.entries.length
  entries_ne_nil : ∀ s ∈ h.entries, s ≠ []
  length_le : ∀ m ∈ h.limit?, (h.entries.length : Int) ≤ m

theorem isSound_empty {limit? : Option Int} (hlimit : ∀ m ∈ limit?, 0 ≤ m) :
    (empty limit?).IsSound where
  position_le := Nat.le_refl 0
  entries_ne_nil _ hs := absurd hs List.not_mem_nil
  length_le m hm := hlimit m hm

namespace IsSound

theorem limit_nonneg (hs : h.IsSound) : ∀ m ∈ h.limit?, 0 ≤ m := by
  intro m hm
  have hle := hs.length_le m hm
  omega

/-- A history that is sound finds what it looks for. -/
theorem current?_eq_none_iff (hs : h.IsSound) : h.current? = none ↔ h.position = 0 := by
  rw [current?]
  split
  next hzero => exact iff_of_true rfl hzero
  next hpos =>
    have hle := hs.position_le
    rw [List.getElem?_eq_none_iff]
    omega

theorem current?_ne_none_iff (hs : h.IsSound) : h.current? ≠ none ↔ 0 < h.position := by
  rw [ne_eq, hs.current?_eq_none_iff, Nat.pos_iff_ne_zero]

theorem not_isDangling (hs : h.IsSound) : ¬h.IsDangling :=
  not_isDangling_of_le hs.position_le

theorem reset (hs : h.IsSound) : h.reset.IsSound :=
  { hs with position_le := Nat.zero_le _ }

theorem older (hs : h.IsSound) : h.older.IsSound :=
  { hs with position_le := h.position_older_le }

theorem newer (hs : h.IsSound) : h.newer.IsSound :=
  { hs with position_le := position_newer_le hs.position_le }

theorem push (hs : h.IsSound) (line : List Char) : (h.push line).IsSound := by
  rcases eq_or_ne line [] with rfl | hline
  · exact hs
  · rw [push_of_ne_nil hline, trim_eq_cutTo hs.limit_nonneg]
    refine ⟨Nat.zero_le _, ?_, length_cutTo_le hs.limit_nonneg _⟩
    intro s hmem
    rcases List.mem_cons.1 ((cutTo_sublist _ _).subset hmem) with rfl | hmem
    · exact hline
    · exact hs.entries_ne_nil s hmem

end IsSound

end History

end ShellLine
