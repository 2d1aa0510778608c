import ShellLine.Proofs.Command.Items

/-!
# Proofs/Command/AssignmentStream — the items of a line, call by call

An `AssignmentStream` gives one item at a time and remembers where it is.  `next_advance` says that
its calls give the items of the line and then nothing, and `advance_of_le` and `advance_length_succ`
where it is after each of them; a stream that has stopped stays as it is (`next_next_of_none`).

`advance_ofText` puts this together with the shape of the items.
-/

namespace ShellLine

namespace AssignmentStream

/-- The stream after `n` calls of `next`. -/
def advance : Nat → AssignmentStream → AssignmentStream
  | 0, st => st
  | n + 1, st => advance n st.next.2

theorem next_mk (source s : List Char) :
    next ⟨source, s, false⟩ =
      ((Item.first s).1, ⟨source, (Item.first s).2, (Item.first s).1.any Item.isError⟩) := by
  cases s <;> rfl

theorem next_of_failed {st : AssignmentStream} (h : st.failed = true) : st.next = (none, st) := by
  obtain ⟨source, rest, failed⟩ := st
  obtain rfl : failed = true := h
  rfl

/-- **A stream that has stopped stays where it is.** -/
theorem next_next_of_none {st : AssignmentStream} (h : st.next.1 = none) :
    st.next.2.next = (none, st.next.2) := by
  obtain ⟨source, s, failed⟩ := st
  cases failed with
  | true => rfl
  | false =>
    rw [next_mk] at h ⊢
    rw [Item.first_of_none h]
    rfl

theorem advance_of_none {st : AssignmentStream} (h : st.next.1 = none) (n : Nat) :
    advance (n + 1) st = st.next.2 := by
  induction n generalizing st with
  | zero => rfl
  | succ n ih =>
    have hstop := next_next_of_none h
    rw [advance, ih (by rw [hstop]), hstop]

theorem advance_succ_mk {s rest : List Char} {i : Item} (h : Item.first s = (some i, rest))
    (source : List Char) (n : Nat) :
    advance (n + 1) ⟨source, s, false⟩ = advance n ⟨source, rest, i.isError⟩ := by
  rw [advance, next_mk, h]
  rfl

/-- As long as there are items, a call reads one and goes behind its text. -/
theorem advance_of_le {n : Nat} (source : List Char) {s : List Char}
    (hn : n ≤ (assignmentItems s).length) :
    advance n ⟨source, s, false⟩ =
      ⟨source, s.drop (itemsText ((assignmentItems s).take n)).length,
        ((assignmentItems s).take n).any Item.isError⟩ := by
  induction n generalizing s with
  | zero => rfl
  | succ n ih =>
    rcases h : Item.first s with ⟨_ | i, rest⟩
    · rw [assignmentItems_of_first_none (congrArg Prod.fst h)] at hn
      cases hn
    · have hdrop : s.drop i.text.length = rest := by rw [← Item.text_first h, List.drop_left]
      cases hi : i.isError with
      | true =>
        rw [assignmentItems_of_isError h hi] at hn ⊢
        obtain rfl : n = 0 := by simpa using hn
        rw [advance_succ_mk h]
        simp [advance, hi, hdrop]
      | false =>
        rw [assignmentItems_of_not_isError h hi] at hn ⊢
        rw [advance_succ_mk h, hi, ih (by simpa using hn), List.take_succ_cons, itemsText_cons,
          List.length_append, ← List.drop_drop, hdrop, List.any_cons, hi, Bool.false_or]

theorem advance_of_failed {st : AssignmentStream} (h : st.failed = true) (n : Nat) :
    advance n st = st := by
  have hnext := next_of_failed h
  cases n with
  | zero => rfl
  | succ n => rw [advance_of_none (by rw [hnext]), hnext]

/-- The calls give the items in order, and then nothing. -/
theorem next_advance (source s : List Char) (n : Nat) :
    (advance n ⟨source, s, false⟩).next.1 = (assignmentItems s)[n]? := by
  induction n generalizing s with
  | zero => rw [advance, next_mk, ← List.head?_eq_getElem?, head?_assignmentItems]
  | succ n ih =>
    rcases h : Item.first s with ⟨_ | i, rest⟩
    · have hnone : (Item.first s).1 = none := congrArg Prod.fst h
      have hstop : (next ⟨source, s, false⟩).1 = none := by rw [next_mk, hnone]
      rw [advance_of_none hstop, next_next_of_none hstop, assignmentItems_of_first_none hnone]
      rfl
    · rw [advance_succ_mk h]
      cases hi : i.isError with
      | true =>
        rw [advance_of_failed rfl, next_of_failed rfl, assignmentItems_of_isError h hi]
        rfl
      | false =>
        rw [ih, assignmentItems_of_not_isError h hi, List.getElem?_cons_succ]

theorem advance_succ (st : AssignmentStream) (n : Nat) :
    advance (n + 1) st = (advance n st).next.2 := by
  induction n generalizing st with
  | zero => rfl
  | succ n ih => rw [advance, ih, advance]

/-- Behind the last item every call leaves the stream the same. -/
theorem advance_of_lt {n : Nat} (source : List Char) {s : List Char}
    (hn : (assignmentItems s).length < n) :
    advance n ⟨source, s, false⟩ =
      advance ((assignmentItems s).length + 1) ⟨source, s, false⟩ := by
  induction n, hn using Nat.le_induction with
  | base => rfl
  | succ n hn ih =>
    obtain ⟨m, rfl⟩ := Nat.exists_eq_succ_of_ne_zero (Nat.ne_of_gt (Nat.zero_lt_of_lt hn))
    have hstop : (advance m ⟨source, s, false⟩).next.1 = none := by
      rw [next_advance, List.getElem?_eq_none (Nat.le_of_lt_succ hn)]
    rw [← ih, advance_succ, advance_succ, next_next_of_none hstop]

/-- The call behind the last item passes over a name, but nothing behind an error. -/
theorem advance_length_succ (source : List Char) {s rest : List Char}
    (htext : itemsText (assignmentItems s) ++ rest = s)
    (hrest : (∃ i ∈ assignmentItems s, i.isError = true) ∨ rest = [] ∨ IsName rest) :
    advance ((assignmentItems s).length + 1) ⟨source, s, false⟩ =
      ⟨source, if (assignmentItems s).any Item.isError then rest else [],
        (assignmentItems s).any Item.isError⟩ := by
  have hdrop : s.drop (itemsText (assignmentItems s)).length = rest :=
    (congrArg (List.drop _) htext.symm).trans List.drop_left
  rw [advance_succ, advance_of_le source le_rfl, List.take_length, hdrop]
  cases hany : (assignmentItems s).any Item.isError with
  | true => rfl
  | false =>
    have hnone : Item.first rest = (none, []) := by
      obtain herror | rfl | hname := hrest
      · rw [← List.any_eq_true, hany] at herror
        cases herror
      · rfl
      · exact Item.first_name hname
    rw [next_mk, hnone]
    rfl

/-- **What the stream of a line gives, and where it is.**  The items stand in an order they may
have, and their text is the front of the line; an unclosed quote takes all of it.  The calls give
these items and then nothing.  While there are items, the offset is the length of their text; the
stream has failed exactly if the last of them is an error.  Without an error it has read the line to
its end, and what it has not given back is nothing or a name.  Then it stays as it is. -/
theorem advance_ofText (s : List Char) :
    let items : List Item := assignmentItems s
    let stopped : AssignmentStream := advance (items.length + 1) (ofText s)
    items.IsChain Item.MayPrecede ∧
      (∀ a, .assignment a ∈ items → a.value.isUnclosed = true → itemsText items = s) ∧
      itemsText items <+: s ∧
      (∀ n, (advance n (ofText s)).next.1 = items[n]?) ∧
      (∀ n ≤ items.length, (advance n (ofText s)).offset = (itemsText (items.take n)).length) ∧
      (∀ n, (advance n (ofText s)).failed = true ↔
        ∃ i ∈ (items.take n).getLast?, i.isError = true) ∧
      (stopped.failed = false → stopped.offset = s.length ∧
        ∃ rest, s = itemsText items ++ rest ∧ (rest = [] ∨ IsName rest)) ∧
      ∀ n > items.length, advance n (ofText s) = stopped := by
  intro items stopped
  obtain ⟨rest, htext, hrest⟩ := exists_itemsText_append s
  have hchain : items.IsChain Item.MayPrecede := isChain_assignmentItems s
  have hstopped : stopped =
      ⟨s, if items.any Item.isError then rest else [], items.any Item.isError⟩ :=
    advance_length_succ s htext hrest
  refine ⟨hchain, fun a ha hunclosed => itemsText_of_isUnclosed ha hunclosed, ⟨rest, htext⟩,
    next_advance s s, fun n hn => ?offset, fun n => ?failed, fun hfailed => ?ended,
    fun n hn => advance_of_lt s hn⟩
  case offset =>
    have hle : (itemsText (items.take n)).length ≤ s.length := by
      rw [← htext, List.length_append, ← List.take_append_drop n (assignmentItems s),
        itemsText_append, List.length_append, Nat.add_assoc]
      exact Nat.le_add_right _ _
    rw [ofText, advance_of_le s hn, offset, List.length_drop]
    exact Nat.sub_sub_self hle
  case failed =>
    rw [← exists_isError_iff (hchain.take n), ← List.any_eq_true]
    rcases Nat.lt_or_ge items.length n with hn | hn
    · rw [ofText, advance_of_lt s hn, List.take_of_length_le hn.le]
      exact iff_of_eq (congrArg (·.failed = true) hstopped)
    · rw [ofText, advance_of_le s hn]
  case ended =>
    have hany : items.any Item.isError = false := by rwa [hstopped] at hfailed
    refine ⟨by simp [hstopped, hany, offset], rest, htext.symm, hrest.resolve_left fun h => ?_⟩
    rw [← List.any_eq_true, hany] at h
    cases h

/-- A line of which a name is left: the stream passes over it and gives no item for it. -/
theorem advance_ofText_name :
    (advance 3 (ofText ['A', '=', 'b', ' ', 'c'])).failed = false ∧
      (advance 3 (ofText ['A', '=', 'b', ' ', 'c'])).offset = 5 := by
  have hlength : (assignmentItems ['A', '=', 'b', ' ', 'c']).length = 2 := by decide +kernel
  have hfailed : (advance 3 (ofText ['A', '=', 'b', ' ', 'c'])).failed = false := by decide +kernel
  obtain ⟨-, -, -, -, -, -, hended, -⟩ := advance_ofText ['A', '=', 'b', ' ', 'c']
  rw [hlength] at hended
  exact ⟨hfailed, (hended hfailed).1⟩

end AssignmentStream

end ShellLine
