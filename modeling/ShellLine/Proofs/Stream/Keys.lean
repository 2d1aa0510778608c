import Mathlib.Data.List.Basic
import ShellLine.Stream.Split

/-!
# Proofs/Stream/Keys — whole keys, and keys that a read cuts

`splitKeys` cuts a key off as soon as it is whole, and waits until it is.

* `keyLength?_eq_find?` says this of all kinds of keys at once: a key ends where its bytes reach its
  end (`reachesEnd`) for the first time.
* `keyLength?_append` and `keyLength?_take` say that the length of a key depends on its own bytes
  only: bytes behind it do not change it, and it is unknown as long as one of them is missing.
* `splitKeys_of_append_eq` describes what is got from the front part of some keys: those that are
  whole, and the beginning of the next.
-/

namespace ShellLine

variable {e b : UInt8} {s x : List UInt8} {n : Nat}

/-! ## The length of the first key

A key ends where its bytes reach its end for the first time: an escape sequence where it is whole, a
character where it has as many bytes as the first of them asks for. -/

/-- Do the bytes that begin with `e` reach the end of their first key? -/
def reachesEnd (e : UInt8) (s : List UInt8) : Bool :=
  if e = escByte then sequenceStatus (e :: s) != .incomplete else Utf8.length e ≤ s.length + 1

theorem reachesEnd_escape (s : List UInt8) :
    reachesEnd escByte s = (sequenceStatus (escByte :: s) != .incomplete) :=
  if_pos rfl

theorem reachesEnd_escape_cons (b : UInt8) (s : List UInt8) :
    reachesEnd escByte (b :: s) = isWholeAfterEscape b s := by
  rw [reachesEnd_escape, sequenceStatus, if_pos rfl, SequenceStatus.ofBool]
  cases isWholeAfterEscape b s <;> rfl

/-- An escape alone does not reach its end, so only the bytes behind it matter. -/
theorem forall_reachesEnd_escape_iff :
    (∀ m < n + 1, reachesEnd escByte ((b :: s).take m) = false) ↔
      ∀ m < n, isWholeAfterEscape b (s.take m) = false := by
  constructor
  · intro h m hm
    rw [← reachesEnd_escape_cons, ← List.take_succ_cons]
    exact h (m + 1) (Nat.succ_lt_succ hm)
  · intro h m hm
    cases m with
    | zero => rfl
    | succ m =>
      rw [List.take_succ_cons, reachesEnd_escape_cons]
      exact h m (Nat.lt_of_succ_lt_succ hm)

theorem reachesEnd_of_ne (he : e ≠ escByte) (s : List UInt8) :
    reachesEnd e s = decide (Utf8.length e ≤ s.length + 1) :=
  if_neg he

/-- **The first key ends** where its end is reached for the first time. -/
theorem keyLength?_eq_find? (e : UInt8) (s : List UInt8) :
    keyLength? e s =
      ((List.range (s.length + 1)).find? fun n => reachesEnd e (s.take n)).map (· + 1) := by
  by_cases he : e = escByte
  · subst he
    simp only [keyLength?, if_true, reachesEnd_escape]
  · have hpos := Utf8.length_pos e
    simp only [keyLength?, if_neg he, reachesEnd_of_ne he, List.length_take]
    split
    next hlen =>
      -- One byte less is too few: the end is reached where the last byte comes in.
      have hfind : (List.range (s.length + 1)).find?
          (fun n => decide (Utf8.length e ≤ min n s.length + 1)) = some (Utf8.length e - 1) := by
        simp only [List.find?_range_eq_some, decide_eq_true_eq, List.mem_range,
          Bool.not_eq_true', decide_eq_false_iff_not]
        exact ⟨by omega, by omega, fun m hm => by omega⟩
      rw [hfind, Option.map_some, Nat.sub_add_cancel hpos]
    next hlen =>
      symm
      simp only [Option.map_eq_none_iff, List.find?_range_eq_none, Bool.not_eq_true',
        decide_eq_false_iff_not]
      exact fun m hm => by omega

theorem keyLength?_eq_some_iff :
    keyLength? e s = some (n + 1) ↔
      n ≤ s.length ∧ reachesEnd e (s.take n) = true ∧ ∀ m < n, reachesEnd e (s.take m) = false := by
  simp only [keyLength?_eq_find?, Option.map_eq_some_iff, List.find?_range_eq_some, List.mem_range,
    Nat.lt_succ_iff, Nat.add_right_cancel_iff, exists_eq_right, Bool.not_eq_true']
  exact and_left_comm

theorem keyLength?_eq_none_iff :
    keyLength? e s = none ↔ ∀ m ≤ s.length, reachesEnd e (s.take m) = false := by
  simp only [keyLength?_eq_find?, Option.map_eq_none_iff, List.find?_range_eq_none,
    Nat.lt_succ_iff, Bool.not_eq_true']

theorem keyLength?_le (h : keyLength? e s = some n) : n ≤ s.length + 1 := by
  obtain ⟨m, rfl⟩ := Nat.exists_eq_add_one.2 (keyLength?_pos h)
  exact Nat.succ_le_succ (keyLength?_eq_some_iff.1 h).1

/-- **Bytes behind a key do not change where it ends.** -/
theorem keyLength?_append (h : keyLength? e s = some n) (t : List UInt8) :
    keyLength? e (s ++ t) = some n := by
  obtain ⟨m, rfl⟩ := Nat.exists_eq_add_one.2 (keyLength?_pos h)
  obtain ⟨hm, hend, hleast⟩ := keyLength?_eq_some_iff.1 h
  refine keyLength?_eq_some_iff.2 ⟨?_, ?_, fun l hl => ?_⟩
  · rw [List.length_append]
    omega
  · rwa [List.take_append_of_le_length hm]
  · rw [List.take_append_of_le_length (by omega)]
    exact hleast l hl

/-- **A key that lacks a byte has no length yet.** -/
theorem keyLength?_take {m : Nat} (h : keyLength? e s = some n) (hm : m + 1 < n) :
    keyLength? e (s.take m) = none := by
  obtain ⟨k, rfl⟩ := Nat.exists_eq_add_one.2 (keyLength?_pos h)
  obtain ⟨-, -, hleast⟩ := keyLength?_eq_some_iff.1 h
  refine keyLength?_eq_none_iff.2 fun l hl => ?_
  rw [List.length_take] at hl
  rw [List.take_take, Nat.min_eq_left (by omega)]
  exact hleast l (by omega)

/-- The bytes up to where a key ends are enough to find that end. -/
theorem keyLength?_take_self {m : Nat} (h : keyLength? e s = some (m + 1)) :
    keyLength? e (s.take m) = some (m + 1) := by
  obtain ⟨hm, hend, hleast⟩ := keyLength?_eq_some_iff.1 h
  refine keyLength?_eq_some_iff.2 ⟨?_, ?_, fun l hl => ?_⟩
  · exact Nat.le_of_eq (List.length_take_of_le hm).symm
  · rwa [List.take_take, Nat.min_self]
  · rw [List.take_take, Nat.min_eq_left (by omega)]
    exact hleast l hl

/-! ## Splitting -/

theorem splitKeys_of_none (h : keyLength? e s = none) : splitKeys (e :: s) = ([], e :: s) := by
  rw [splitKeys]
  split
  · rfl
  · simp_all

theorem splitKeys_of_some (h : keyLength? e s = some n) :
    splitKeys (e :: s) =
      ((e :: s).take n :: (splitKeys ((e :: s).drop n)).1, (splitKeys ((e :: s).drop n)).2) := by
  rw [splitKeys]
  split
  · simp_all
  · rename_i m hm
    obtain rfl : m = n := by simpa [hm] using h
    rfl

/-- **Bytes are held back** as long as the end of their first key is not reached. -/
theorem splitKeys_eq_self_iff :
    splitKeys (e :: s) = ([], e :: s) ↔ ∀ m ≤ s.length, reachesEnd e (s.take m) = false := by
  rw [← keyLength?_eq_none_iff]
  refine ⟨fun h => ?_, splitKeys_of_none⟩
  cases hn : keyLength? e s with
  | none => rfl
  | some n => simp [splitKeys_of_some hn] at h

/-- What is left over holds no whole key. -/
theorem splitKeys_snd (data : List UInt8) :
    splitKeys (splitKeys data).2 = ([], (splitKeys data).2) := by
  fun_induction splitKeys data with
  | case1 => rw [splitKeys]
  | case2 e s h => exact splitKeys_of_none h
  | case3 e s n h _ r ih => exact ih

/-- Are the bytes exactly one key? -/
def IsKey (x : List UInt8) : Prop := splitKeys x = ([x], [])

instance : DecidablePred IsKey := fun _ => inferInstanceAs (Decidable (_ = _))

theorem IsKey.ne_nil (h : IsKey x) : x ≠ [] := by
  rintro rfl
  simp [IsKey, splitKeys] at h

theorem isKey_cons_iff : IsKey (e :: s) ↔ keyLength? e s = some (s.length + 1) := by
  constructor
  · intro h
    unfold IsKey at h
    cases hn : keyLength? e s with
    | none => simp [splitKeys_of_none hn] at h
    | some n =>
      rw [splitKeys_of_some hn, Prod.mk.injEq, List.cons.injEq] at h
      have hlen := congrArg List.length h.1.1
      have hle := keyLength?_le hn
      rw [List.length_take, List.length_cons] at hlen
      rw [Option.some.injEq]
      omega
  · intro h
    rw [IsKey, splitKeys_of_some h, ← List.length_cons (a := e), List.take_length, List.drop_length,
      splitKeys]

/-- **Bytes are one key** when they reach its end, and did not before the last of them. -/
theorem isKey_iff_reachesEnd :
    IsKey (e :: s) ↔
      reachesEnd e s = true ∧ ∀ m < s.length, reachesEnd e (s.take m) = false := by
  rw [isKey_cons_iff, keyLength?_eq_some_iff, List.take_length]
  exact and_iff_right (Nat.le_refl _)

/-- A byte that begins a character is a key with as many bytes behind it as it asks for. -/
theorem isKey_iff_length (he : e ≠ escByte) : IsKey (e :: s) ↔ Utf8.length e = s.length + 1 := by
  rw [isKey_cons_iff, keyLength?, if_neg he]
  constructor
  · intro h
    split at h
    · exact Option.some.inj h
    · simp at h
  · intro h
    rw [h, if_pos (Nat.le_refl _)]

/-- An escape sequence is a key when it is whole, and was not before its last byte. -/
theorem isKey_escape_iff :
    IsKey (escByte :: b :: s) ↔
      isWholeAfterEscape b s = true ∧ ∀ n < s.length, isWholeAfterEscape b (s.take n) = false := by
  rw [isKey_iff_reachesEnd, reachesEnd_escape_cons, List.length_cons, forall_reachesEnd_escape_iff]

/-- What is cut off is a key. -/
theorem isKey_of_mem_splitKeys {data : List UInt8} : ∀ x ∈ (splitKeys data).1, IsKey x := by
  fun_induction splitKeys data with
  | case1 => simp
  | case2 => simp
  | case3 e s n h _ r ih =>
    obtain ⟨m, rfl⟩ := Nat.exists_eq_add_one.2 (keyLength?_pos h)
    rw [List.forall_mem_cons, List.take_succ_cons, isKey_cons_iff, keyLength?_take_self h]
    have hle := keyLength?_le h
    refine ⟨?_, ih⟩
    rw [List.length_take, Option.some.injEq]
    omega

/-- **A key in front of other bytes is cut off.** -/
theorem splitKeys_append_of_isKey (hx : IsKey x) (t : List UInt8) :
    splitKeys (x ++ t) = (x :: (splitKeys t).1, (splitKeys t).2) := by
  obtain ⟨e, s, rfl⟩ := List.exists_cons_of_ne_nil hx.ne_nil
  have h := keyLength?_append (isKey_cons_iff.1 hx) t
  rw [List.cons_append, splitKeys_of_some h, ← List.cons_append, ← List.length_cons (a := e),
    List.take_left, List.drop_left]

/-- **The beginning of a key is kept back.** -/
theorem splitKeys_of_append_isKey {data t : List UInt8} (hx : IsKey (data ++ t)) (ht : t ≠ []) :
    splitKeys data = ([], data) := by
  cases data with
  | nil => rw [splitKeys]
  | cons e s =>
    refine splitKeys_of_none ?_
    have h : keyLength? e (s ++ t) = some ((s ++ t).length + 1) := isKey_cons_iff.1 hx
    have hlen := List.length_pos_iff.2 ht
    have := keyLength?_take (m := s.length) h (by rw [List.length_append]; omega)
    rwa [List.take_left] at this

/-- **Keys in front of other bytes are cut off**, and what follows them is split on its own. -/
theorem splitKeys_flatten_append {keys : List (List UInt8)} (h : ∀ x ∈ keys, IsKey x)
    (t : List UInt8) :
    splitKeys (keys.flatten ++ t) = (keys ++ (splitKeys t).1, (splitKeys t).2) := by
  induction keys with
  | nil => rfl
  | cons x keys ih =>
    rw [List.flatten_cons, List.append_assoc, splitKeys_append_of_isKey (h x (by simp)),
      ih fun y hy => h y (by simp [hy])]
    rfl

theorem splitKeys_flatten {keys : List (List UInt8)} (h : ∀ x ∈ keys, IsKey x) :
    splitKeys keys.flatten = (keys, []) := by
  have hsplit := splitKeys_flatten_append h []
  rwa [List.append_nil, splitKeys, List.append_nil] at hsplit

/-- **The front part of some keys** is split into those that are whole, and the beginning of the
next is kept back. -/
theorem splitKeys_of_append_eq {keys : List (List UInt8)} (h : ∀ x ∈ keys, IsKey x) :
    ∀ {data later : List UInt8}, data ++ later = keys.flatten →
      ∃ todo, keys = (splitKeys data).1 ++ todo ∧ (splitKeys data).2 ++ later = todo.flatten := by
  induction keys with
  | nil =>
    intro data later hdata
    obtain ⟨rfl, rfl⟩ := List.append_eq_nil_iff.1 hdata
    exact ⟨[], by simp [splitKeys]⟩
  | cons x keys ih =>
    intro data later hdata
    have hx := h x (by simp)
    rw [List.flatten_cons, List.append_eq_append_iff] at hdata
    obtain ⟨t, rfl, rfl⟩ | ⟨rest, rfl, hrest⟩ := hdata
    · cases t with
      | nil =>
        rw [List.append_nil] at hx
        exact ⟨keys, by rw [hx, List.append_nil, List.singleton_append], by rw [hx]; rfl⟩
      | cons b t =>
        rw [splitKeys_of_append_isKey hx (List.cons_ne_nil b t)]
        exact ⟨(data ++ b :: t) :: keys, rfl, by simp⟩
    · obtain ⟨todo, hkeys, hlater⟩ := ih (fun y hy => h y (by simp [hy])) hrest.symm
      rw [splitKeys_append_of_isKey hx]
      exact ⟨todo, by rw [List.cons_append, ← hkeys], hlater⟩

end ShellLine
