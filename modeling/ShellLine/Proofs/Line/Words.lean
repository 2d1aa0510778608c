import Mathlib.Logic.Function.Iterate
import Mathlib.Order.Bounds.Defs
import ShellLine.Proofs.Line.Between

/-!
# Proofs/Line/Words — where moving by words stops

Going back stops right behind the boundaries of words and at the start; going on stops right behind
the boundaries and at the end.  Both pass over one character before they search, so a cursor that
stands on a stop leaves it.  The way back visits every stop; the way on passes one that is a single
character ahead.

* `iterate_backWord` says that going back again and again visits the stops in front of the cursor
  one by one, and `exists_forwardWord` that going on reaches the next stop.
* `iterate_backWord_and_forwardWord` puts both directions together.
-/

namespace ShellLine

namespace Line

variable {boundary : Char → Bool} {s : List Char} {n i j : Nat}

/-! ## Stops -/

/-- Is the place the start of the text, or right behind a boundary? -/
def isStopAt (boundary : Char → Bool) (s : List Char) : Nat → Bool
  | 0 => true
  | i + 1 => s[i]?.any boundary

/-- The stops in front of a place, the nearest first. -/
def stopsBefore (boundary : Char → Bool) (s : List Char) (n : Nat) : List Nat :=
  ((List.range n).filter (isStopAt boundary s)).reverse

/-- Does going on from place `i` lead to `j`: is that the first stop at least two characters ahead,
or the end if there is none? -/
def IsNextStop (boundary : Char → Bool) (s : List Char) (i j : Nat) : Prop :=
  IsLeast {m | i + 2 ≤ m ∧ m ≤ s.length ∧ isStopAt boundary s m = true} j ∨
    (∀ m, i + 2 ≤ m → m ≤ s.length → isStopAt boundary s m = false) ∧ j = s.length

theorem mem_stopsBefore : i ∈ stopsBefore boundary s n ↔ i < n ∧ isStopAt boundary s i = true := by
  rw [stopsBefore, List.mem_reverse, List.mem_filter, List.mem_range]

theorem pairwise_stopsBefore (boundary : Char → Bool) (s : List Char) (n : Nat) :
    (stopsBefore boundary s n).Pairwise (· > ·) :=
  List.pairwise_reverse.2 (List.pairwise_lt_range.filter _)

theorem stopsBefore_succ (boundary : Char → Bool) (s : List Char) (n : Nat) :
    stopsBefore boundary s (n + 1) =
      if isStopAt boundary s n then n :: stopsBefore boundary s n
      else stopsBefore boundary s n := by
  rw [stopsBefore, List.range_succ, List.filter_append, List.reverse_append, List.filter_singleton]
  cases isStopAt boundary s n <;> rfl

/-- **The nearest stop in front of a place** ends the longest beginning that `lastStop` finds, and
the stops in front of it are the others. -/
theorem stopsBefore_eq_cons (hn : n ≤ s.length) :
    stopsBefore boundary s (n + 1) =
      lastStop boundary (s.take n) :: stopsBefore boundary s (lastStop boundary (s.take n)) := by
  induction n with
  | zero => rfl
  | succ n ih =>
    have hlt : n < s.length := hn
    have hstop : isStopAt boundary s (n + 1) = boundary s[n] := by
      rw [isStopAt, List.getElem?_eq_getElem hlt, Option.any_some]
    rw [stopsBefore_succ, hstop, List.take_succ_eq_append_getElem hlt, lastStop_concat,
      List.length_take, Nat.min_eq_left (Nat.le_of_lt hlt)]
    split
    next => rfl
    next => exact ih (Nat.le_of_lt hlt)

/-! ## Going back -/

theorem backWord_zero (boundary : Char → Bool) (s : List Char) :
    (Line.mk s (0 : Nat)).backWord boundary = ⟨s, (0 : Nat)⟩ := by
  rw [backWord, start_eq_take (Nat.zero_le _)]
  rfl

theorem backWord_succ (hn : n < s.length) :
    (Line.mk s (n + 1 : Nat)).backWord boundary = ⟨s, lastStop boundary (s.take n)⟩ := by
  rw [backWord, start_eq_take hn, List.take_succ_eq_append_getElem hn, List.dropLast_concat]

/-- **Going back visits the stops in front of the cursor**, and then stays at the start. -/
theorem iterate_backWord (hn : n ≤ s.length) (k : Nat) :
    (fun l : Line => l.backWord boundary)^[k + 1] ⟨s, n⟩ =
      ⟨s, ((stopsBefore boundary s n).getD k 0 : Nat)⟩ := by
  induction k generalizing n with
  | zero =>
    cases n with
    | zero => exact backWord_zero boundary s
    | succ n =>
      rw [stopsBefore_eq_cons (Nat.le_of_succ_le hn)]
      exact backWord_succ hn
  | succ k ih =>
    rw [Function.iterate_succ_apply]
    cases n with
    | zero =>
      rw [backWord_zero, ih (Nat.zero_le _)]
      rfl
    | succ n =>
      have hle : lastStop boundary (s.take n) ≤ s.length :=
        Nat.le_trans (lastStop_le boundary _) (List.length_take_le' n s)
      rw [backWord_succ hn, ih hle, stopsBefore_eq_cons (Nat.le_of_succ_le hn),
        List.getD_cons_succ]

/-- Two boundaries side by side make two stops. -/
example : stopsBefore (· == '/') ['a', '/', '/', 'b'] 4 = [3, 2, 0] := by decide

/-! ## Going on -/

theorem IsNextStop.le_length (h : IsNextStop boundary s i j) : j ≤ s.length := by
  obtain hleast | ⟨-, rfl⟩ := h
  · exact hleast.1.2.1
  · exact Nat.le_refl _

/-- Going on moves on, but at the end. -/
theorem IsNextStop.lt_or_eq (h : IsNextStop boundary s i j) (hi : i ≤ s.length) :
    i < j ∨ i = s.length ∧ j = s.length := by
  obtain hleast | ⟨-, rfl⟩ := h
  · have := hleast.1.1
    omega
  · omega

theorem isStopAt_add (n k : Nat) :
    isStopAt boundary s (n + 2 + k) = (s.drop (n + 1))[k]?.any boundary := by
  rw [show n + 2 + k = n + 1 + k + 1 by omega, isStopAt, List.getElem?_drop]

/-- **Going on leads to the next stop.** -/
theorem exists_forwardWord (boundary : Char → Bool) (hn : n ≤ s.length) :
    ∃ j : Nat, (Line.mk s n).forwardWord boundary = ⟨s, j⟩ ∧ IsNextStop boundary s n j := by
  rw [forwardWord, rest_eq_drop hn, List.drop_drop]
  cases hfind : (s.drop (n + 1)).findIdx? boundary with
  | none =>
    refine ⟨s.length, rfl, .inr ⟨?_, rfl⟩⟩
    intro m hm hle
    obtain ⟨k, rfl⟩ := Nat.exists_eq_add_of_le hm
    have hk : k < (s.drop (n + 1)).length := by
      rw [List.length_drop]
      omega
    rw [isStopAt_add, List.getElem?_eq_getElem hk, Option.any_some]
    exact List.findIdx?_eq_none_iff.1 hfind _ (List.getElem_mem hk)
  | some k =>
    obtain ⟨hk, hboundary, hnone⟩ := List.findIdx?_eq_some_iff_getElem.1 hfind
    have hle : n + 2 + k ≤ s.length := by
      rw [List.length_drop] at hk
      omega
    refine ⟨n + 2 + k, ?_, .inl ⟨⟨Nat.le_add_right .., hle, ?_⟩, ?_⟩⟩
    · simp only [forward, length, mk.injEq, true_and]
      omega
    · rw [isStopAt_add, List.getElem?_eq_getElem hk, Option.any_some]
      exact hboundary
    · rintro m ⟨hm, -, hstop⟩
      obtain ⟨k', rfl⟩ := Nat.exists_eq_add_of_le hm
      refine Nat.add_le_add_left (Nat.le_of_not_lt fun hlt => hnone k' hlt ?_) _
      rwa [isStopAt_add, List.getElem?_eq_getElem (Nat.lt_trans hlt hk), Option.any_some] at hstop

/-- Going on again and again takes the cursor on by one each time at least, until it is at the
end. -/
theorem exists_iterate_forwardWord (boundary : Char → Bool) (hn : n ≤ s.length) (k : Nat) :
    ∃ i : Nat, (fun l : Line => l.forwardWord boundary)^[k] ⟨s, n⟩ = ⟨s, i⟩ ∧ i ≤ s.length ∧
      (n + k ≤ i ∨ i = s.length) := by
  induction k with
  | zero => exact ⟨n, rfl, hn, .inl (Nat.le_refl n)⟩
  | succ k ih =>
    obtain ⟨i, hiterate, hi, hfar⟩ := ih
    obtain ⟨j, hforward, hnext⟩ := exists_forwardWord boundary hi
    rw [Function.iterate_succ_apply', hiterate]
    have hj : j ≤ s.length := hnext.le_length
    have hmoves : i < j ∨ i = s.length ∧ j = s.length := hnext.lt_or_eq hi
    exact ⟨j, hforward, hj, by omega⟩

/-- **Moving by words stops at every stop and comes to an end.**  Going back again and again visits
all places in front of the cursor that are the start or right behind a boundary, each nearer to the
start than the one before, and then stays at the start.  Going on leads each time to the next place
right behind a boundary that is two characters ahead at least, or to the end if there is none; so
the cursor moves on until it is at the end, and stays there.  The text does not change. -/
theorem iterate_backWord_and_forwardWord (hn : n ≤ s.length) (boundary : Char → Bool) :
    (∃ stops : List Nat,
      (∀ i, i ∈ stops ↔ i < n ∧ isStopAt boundary s i = true) ∧ stops.Pairwise (· > ·) ∧
        ∀ k, (fun l : Line => l.backWord boundary)^[k + 1] ⟨s, n⟩ = ⟨s, (stops.getD k 0 : Nat)⟩) ∧
      (∀ k, ∃ i j : Nat,
        (fun l : Line => l.forwardWord boundary)^[k] ⟨s, n⟩ = ⟨s, i⟩ ∧
          (fun l : Line => l.forwardWord boundary)^[k + 1] ⟨s, n⟩ = ⟨s, j⟩ ∧
          IsNextStop boundary s i j ∧ (i < j ∨ i = s.length ∧ j = s.length)) ∧
      ∀ k, s.length ≤ n + k →
        (fun l : Line => l.forwardWord boundary)^[k] ⟨s, n⟩ = ⟨s, s.length⟩ := by
  refine ⟨⟨stopsBefore boundary s n, fun i => mem_stopsBefore, pairwise_stopsBefore boundary s n,
    iterate_backWord hn⟩, ?_, ?_⟩
  · intro k
    obtain ⟨i, hiterate, hi, -⟩ := exists_iterate_forwardWord boundary hn k
    obtain ⟨j, hforward, hnext⟩ := exists_forwardWord boundary hi
    refine ⟨i, j, hiterate, ?_, hnext, hnext.lt_or_eq hi⟩
    rw [Function.iterate_succ_apply', hiterate, hforward]
  · intro k hk
    obtain ⟨i, hiterate, hi, hfar⟩ := exists_iterate_forwardWord boundary hn k
    obtain rfl : i = s.length := by omega
    exact hiterate

/-- From the start of a line of four characters the end is at most four words ahead. -/
theorem iterate_backWord_and_forwardWord_to_end :
    0 ≤ ['a', '/', '/', 'b'].length ∧
      (fun l : Line => l.forwardWord (· == '/'))^[4] ⟨['a', '/', '/', 'b'], (0 : Nat)⟩ =
        ⟨['a', '/', '/', 'b'], (4 : Nat)⟩ :=
  have hstart : 0 ≤ ['a', '/', '/', 'b'].length := Nat.zero_le _
  ⟨hstart, (iterate_backWord_and_forwardWord hstart (· == '/')).2.2 4 (by decide)⟩

end Line

end ShellLine
