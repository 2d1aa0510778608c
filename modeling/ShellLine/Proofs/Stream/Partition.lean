import ShellLine.Proofs.Stream.Keys

/-!
# Proofs/Stream/Partition — a stream falls into shortest whole keys

What is cut off a stream are shortest whole keys, and what is left over has not become one yet.  Here
both are said by the status of escape sequences and the lengths of characters alone, and two theorems
follow.

* `splitKeys_eq_iff` — a stream can be parted in this way, and in no other.
* `splitKeys_append` — bytes that come later change nothing of what was cut off: splitting what was
  left over, with the new bytes behind it, goes on where the first splitting stopped.

Both rest on one fact for each side: the keys that are cut off are the whole ones
(`isKey_iff_isWhole`), and the bytes that are held back are the unfinished ones
(`splitKeys_eq_self_iff_isUnfinished`).
-/

namespace ShellLine

variable {e : UInt8} {s x : List UInt8} {n : Nat}

/-! ## The status of escape sequences -/

theorem reachesEnd_escape_eq_true_iff :
    reachesEnd escByte s = true ↔ sequenceStatus (escByte :: s) = .complete := by
  cases s with
  | nil => decide
  | cons b s =>
    rw [reachesEnd_escape_cons, sequenceStatus, if_pos rfl, SequenceStatus.ofBool]
    cases isWholeAfterEscape b s <;> decide

theorem reachesEnd_escape_eq_false_iff :
    reachesEnd escByte s = false ↔ sequenceStatus (escByte :: s) = .incomplete := by
  rw [reachesEnd_escape, bne_eq_false_iff_eq]

/-! ## Whole and unfinished keys

Both speak of the beginnings of a sequence, and a beginning that holds a byte holds the escape. -/

theorem forall_take_escape_iff :
    (∀ m, 0 < m → m < n + 1 → sequenceStatus ((escByte :: s).take m) = .incomplete) ↔
      ∀ m < n, sequenceStatus (escByte :: s.take m) = .incomplete := by
  constructor
  · exact fun h m hm => h (m + 1) (Nat.succ_pos m) (Nat.succ_lt_succ hm)
  · intro h m hpos hm
    obtain ⟨k, rfl⟩ := Nat.exists_eq_add_one.2 hpos
    exact h k (Nat.lt_of_succ_lt_succ hm)

/-- A whole key: an escape sequence that is whole, and was not before its last byte, or as many bytes
as the first of them asks for. -/
inductive IsWhole : List UInt8 → Prop
  | sequence {s : List UInt8} (whole : sequenceStatus (escByte :: s) = .complete)
      (shortest : ∀ m, 0 < m → m < (escByte :: s).length →
        sequenceStatus ((escByte :: s).take m) = .incomplete) : IsWhole (escByte :: s)
  | character {e : UInt8} {s : List UInt8} (he : e ≠ escByte)
      (hlen : (e :: s).length = Utf8.length e) : IsWhole (e :: s)

/-- Bytes that are no whole key yet, and begin with none: nothing, an escape sequence of which no
beginning is whole, or fewer bytes than the first of them asks for. -/
inductive IsUnfinished : List UInt8 → Prop
  | nothing : IsUnfinished []
  | sequence {s : List UInt8} (waiting : ∀ m, 0 < m → m ≤ (escByte :: s).length →
      sequenceStatus ((escByte :: s).take m) = .incomplete) : IsUnfinished (escByte :: s)
  | character {e : UInt8} {s : List UInt8} (he : e ≠ escByte)
      (hlen : (e :: s).length < Utf8.length e) : IsUnfinished (e :: s)

theorem isWhole_escape_iff :
    IsWhole (escByte :: s) ↔ sequenceStatus (escByte :: s) = .complete ∧
      ∀ m < s.length, sequenceStatus (escByte :: s.take m) = .incomplete := by
  constructor
  · intro h
    cases h with
    | sequence whole shortest => exact ⟨whole, forall_take_escape_iff.1 shortest⟩
    | character he => exact absurd rfl he
  · exact fun ⟨whole, shortest⟩ => .sequence whole (forall_take_escape_iff.2 shortest)

theorem isWhole_cons_iff (he : e ≠ escByte) :
    IsWhole (e :: s) ↔ s.length + 1 = Utf8.length e := by
  constructor
  · intro h
    cases h with
    | sequence => exact absurd rfl he
    | character _ hlen => exact hlen
  · exact .character he

theorem isUnfinished_escape_iff :
    IsUnfinished (escByte :: s) ↔
      ∀ m ≤ s.length, sequenceStatus (escByte :: s.take m) = .incomplete := by
  simp only [← Nat.lt_succ_iff]
  rw [← forall_take_escape_iff]
  constructor
  · intro h
    cases h with
    | sequence waiting => exact fun m hpos hm => waiting m hpos (Nat.lt_succ_iff.1 hm)
    | character he => exact absurd rfl he
  · exact fun waiting => .sequence fun m hpos hm => waiting m hpos (Nat.lt_succ_iff.2 hm)

theorem isUnfinished_cons_iff (he : e ≠ escByte) :
    IsUnfinished (e :: s) ↔ s.length + 1 < Utf8.length e := by
  constructor
  · intro h
    cases h with
    | sequence => exact absurd rfl he
    | character _ hlen => exact hlen
  · exact .character he

/-- **The keys that are cut off are the whole ones.** -/
theorem isKey_iff_isWhole : IsKey x ↔ IsWhole x := by
  cases x with
  | nil => exact ⟨fun h => absurd rfl h.ne_nil, fun h => nomatch h⟩
  | cons e s =>
    by_cases he : e = escByte
    · subst he
      simp only [isKey_iff_reachesEnd, isWhole_escape_iff, reachesEnd_escape_eq_true_iff,
        reachesEnd_escape_eq_false_iff]
    · rw [isKey_iff_length he, isWhole_cons_iff he, eq_comm]

/-- **The bytes that are held back are the unfinished ones.** -/
theorem splitKeys_eq_self_iff_isUnfinished : splitKeys x = ([], x) ↔ IsUnfinished x := by
  cases x with
  | nil => exact ⟨fun _ => .nothing, fun _ => by rw [splitKeys]⟩
  | cons e s =>
    rw [splitKeys_eq_self_iff]
    by_cases he : e = escByte
    · subst he
      simp only [isUnfinished_escape_iff, reachesEnd_escape_eq_false_iff]
    · simp only [isUnfinished_cons_iff he, reachesEnd_of_ne he, decide_eq_false_iff_not,
        List.length_take]
      exact ⟨fun h => by have := h s.length (Nat.le_refl _); omega, fun h m hm => by omega⟩

/-! ## Parting a stream -/

/-- **Where the keys of a stream are**: behind bytes of which nothing is left over. -/
theorem mem_splitKeys_iff {data : List UInt8} :
    x ∈ (splitKeys data).1 ↔
      ∃ before later, data = before ++ (x ++ later) ∧ (splitKeys before).2 = [] ∧ IsKey x := by
  constructor
  · intro hx
    have hkeys := @isKey_of_mem_splitKeys data
    have hlossless := flatten_splitKeys data
    obtain ⟨front, back, hsplit⟩ := List.append_of_mem hx
    rw [hsplit] at hkeys hlossless
    refine ⟨front.flatten, back.flatten ++ (splitKeys data).2, ?_, ?_, hkeys x (by simp)⟩
    · exact hlossless.symm.trans (by simp)
    · rw [splitKeys_flatten fun y hy => hkeys y (by simp [hy])]
  · rintro ⟨before, later, rfl, hbefore, hx⟩
    have hlossless := flatten_splitKeys before
    rw [hbefore, List.append_nil] at hlossless
    rw [← hlossless, splitKeys_flatten_append isKey_of_mem_splitKeys, splitKeys_append_of_isKey hx]
    simp

/-- **A stream falls into whole keys and an unfinished one**, and this says what they are: no other
parts of it are whole keys with an unfinished one behind them. -/
theorem splitKeys_eq_iff (data : List UInt8) (keys : List (List UInt8)) (rest : List UInt8) :
    splitKeys data = (keys, rest) ↔
      keys.flatten ++ rest = data ∧ (∀ x ∈ keys, IsWhole x) ∧ IsUnfinished rest := by
  constructor
  · intro h
    have hlossless := flatten_splitKeys data
    have hkeys := @isKey_of_mem_splitKeys data
    have hrest := splitKeys_snd data
    rw [h] at hlossless hkeys hrest
    exact ⟨hlossless, fun x hx => isKey_iff_isWhole.1 (hkeys x hx),
      splitKeys_eq_self_iff_isUnfinished.1 hrest⟩
  · rintro ⟨rfl, hkeys, hrest⟩
    rw [splitKeys_flatten_append fun x hx => isKey_iff_isWhole.2 (hkeys x hx),
      splitKeys_eq_self_iff_isUnfinished.2 hrest, List.append_nil]

/-- **Splitting goes on where it stopped**: the keys of some bytes, and then those of what was left
over and of more bytes behind it, are the keys of all the bytes, and the same is left over. -/
theorem splitKeys_append (data more : List UInt8) :
    splitKeys (data ++ more) =
      ((splitKeys data).1 ++ (splitKeys ((splitKeys data).2 ++ more)).1,
        (splitKeys ((splitKeys data).2 ++ more)).2) := by
  calc splitKeys (data ++ more)
      = splitKeys ((splitKeys data).1.flatten ++ ((splitKeys data).2 ++ more)) := by
        rw [← List.append_assoc, flatten_splitKeys]
    _ = _ := splitKeys_flatten_append isKey_of_mem_splitKeys _

end ShellLine
