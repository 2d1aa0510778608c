import ShellLine.Proofs.Command.Printing

/-!
# Proofs/Command/Front — the front of a command line, and what is left of the line

Reading a command keeps the assignments among the items of its line, up to the end or an unclosed
quote.  `front_induction` is the induction along that reading, and one equation for each of its
cases says what `readFrom` and `assignmentItems` do there.

* `assignments_readFrom` and `error?_readFrom` read the front of a line off its items.
* `exists_append_rest` says that the line is parted cleanly: its front alone has the same
  assignments, and its rest alone has none.

`Command.parse_drop_and_take_offset` is the same for whole commands.
-/

namespace ShellLine

/-! ## Items that are kept -/

namespace Item

/-- The assignment of an item, if its quote is closed. -/
def kept? : Item → Option Assignment
  | assignment a => if a.value.isUnclosed then none else some a
  | _ => none

theorem eq_assignment_of_kept? {i : Item} {a : Assignment} (h : i.kept? = some a) :
    i = assignment a := by
  rcases i with _ | b | _ | _
  · cases h
  · simp only [kept?, Option.ite_none_left_eq_some, Option.some.injEq] at h
    rw [h.2]
  · cases h
  · cases h

theorem kept?_of_isError {i : Item} (h : i.isError = true) : i.kept? = none := by
  cases i with
  | assignment a => cases h
  | _ => rfl

/-- The error of an item, if it is an assignment with an unclosed quote. -/
def unclosed? : Item → Option UnclosedQuote
  | assignment a => a.value.unclosedAt? .assignment
  | _ => none

theorem unclosed?_of_isError {i : Item} (h : i.isError = true) : i.unclosed? = none := by
  cases i with
  | assignment a => cases h
  | _ => rfl

end Item

/-! ## Induction along the front -/

section Induction

variable {s rest kept : List Char} {a : Assignment}

/-- **Induction along the front of a line**: it ends, or begins with blanks, with an assignment that
is kept, or with one whose quote is unclosed. -/
@[elab_as_elim]
theorem front_induction {motive : List Char → Prop}
    (stop : ∀ s, (∀ i ∈ (Item.first s).1, i.isError = true) → motive s)
    (blank : ∀ run rest, (Token.blank run).IsCanonical → (Token.blank run).EndsBefore rest →
      motive rest → motive (run ++ rest))
    (closed : ∀ (a : Assignment) (rest : List Char), a.IsCanonical → a.value.isUnclosed = false →
      a.value.EndsBefore rest → motive rest → motive (a.text ++ rest))
    (unclosed : ∀ a : Assignment, a.IsCanonical → a.value.isUnclosed = true → motive a.text)
    (s : List Char) : motive s := by
  induction s using items_induction with
  | nil => exact stop [] (by simp [Item.first])
  | name w hw => exact stop w (by simp [Item.first_name hw])
  | error s i rest h hi => exact stop s (by simpa [h] using hi)
  | item s i rest h hi ih =>
    rw [← Item.text_first h]
    obtain ⟨run, rfl, hrun, hend⟩ | ⟨a, rfl, ha, hend⟩ := Item.cases_of_first h hi
    · exact blank run rest hrun hend ih
    · cases hv : a.value.isUnclosed with
      | false => exact closed a rest ha hv hend ih
      | true =>
        rw [hend.eq_nil hv, List.append_nil]
        exact unclosed a ha hv

theorem assignmentItems_of_stop (h : ∀ i ∈ (Item.first s).1, i.isError = true) :
    assignmentItems s = (Item.first s).1.toList := by
  rcases hfirst : Item.first s with ⟨_ | i, rest⟩
  · exact assignmentItems_of_first_none (congrArg Prod.fst hfirst)
  · exact assignmentItems_of_isError hfirst (h i (by simp [hfirst]))

theorem assignmentItems_blank_append {run : List Char} (hrun : (Token.blank run).IsCanonical)
    (hend : (Token.blank run).EndsBefore rest) :
    assignmentItems (run ++ rest) = .blank run :: assignmentItems rest :=
  assignmentItems_of_not_isError (Item.first_blank_append hrun hend) rfl

theorem assignmentItems_assignment_append (ha : a.IsCanonical) (hend : a.value.EndsBefore rest) :
    assignmentItems (a.text ++ rest) = .assignment a :: assignmentItems rest :=
  assignmentItems_of_not_isError (Item.first_assignment_append ha hend) rfl

theorem assignmentItems_text (ha : a.IsCanonical) : assignmentItems a.text = [.assignment a] := by
  have h := assignmentItems_assignment_append ha a.value.endsBefore_nil
  rwa [List.append_nil, assignmentItems_nil] at h

namespace Leading

theorem readFrom_closed (ha : a.IsCanonical) (hv : a.value.isUnclosed = false) :
    readFrom kept a.text = ⟨[a], [], none⟩ := by
  have h : readFrom kept (a.text ++ []) = (readFrom [] []).cons a :=
    readFrom_closed_append ha hv a.value.endsBefore_nil
  rwa [List.append_nil, readFrom] at h

theorem readFrom_unclosed (ha : a.IsCanonical) (hv : a.value.isUnclosed = true) :
    readFrom kept a.text = ⟨[], kept, a.value.unclosedAt? .assignment⟩ := by
  have hfirst := Item.first_assignment_append ha a.value.endsBefore_nil
  rw [List.append_nil] at hfirst
  obtain ⟨e, he⟩ : ∃ e, a.value.unclosedAt? .assignment = some e := by
    rwa [← Option.isSome_iff_exists, Value.isSome_unclosedAt?]
  rw [readFrom_of_first hfirst, he]
  rfl

end Leading

end Induction

namespace Leading

/-! ## The front, read off the items -/

theorem assignments_readFrom (kept s : List Char) :
    (readFrom kept s).assignments = (assignmentItems s).filterMap Item.kept? := by
  induction s using front_induction generalizing kept with
  | stop s h =>
    rw [readFrom_of_stop h, assignmentItems_of_stop h]
    cases hfirst : (Item.first s).1 with
    | none => rfl
    | some i => simp [Item.kept?_of_isError (h i hfirst)]
  | blank run rest hrun hend ih =>
    rw [readFrom_blank_append hrun.2, assignmentItems_blank_append hrun hend, ih]
    rfl
  | closed a rest ha hv hend ih =>
    have hkept : Item.kept? (.assignment a) = some a := by simp [Item.kept?, hv]
    rw [readFrom_closed_append ha hv hend, assignmentItems_assignment_append ha hend,
      List.filterMap_cons_some hkept, ← ih rest]
    rfl
  | unclosed a ha hv =>
    rw [readFrom_unclosed ha hv, assignmentItems_text ha]
    simp [Item.kept?, hv]

theorem error?_readFrom (kept s : List Char) :
    (readFrom kept s).error? = (assignmentItems s).getLast?.bind Item.unclosed? := by
  induction s using front_induction generalizing kept with
  | stop s h =>
    rw [readFrom_of_stop h, assignmentItems_of_stop h]
    cases hfirst : (Item.first s).1 with
    | none => rfl
    | some i => simp [Item.unclosed?_of_isError (h i hfirst)]
  | blank run rest hrun hend ih =>
    rw [readFrom_blank_append hrun.2, assignmentItems_blank_append hrun hend, ih,
      List.getLast?_cons]
    cases (assignmentItems rest).getLast? <;> rfl
  | closed a rest ha hv hend ih =>
    have hnone : Item.unclosed? (.assignment a) = none := Value.unclosedAt?_of_not_isUnclosed hv _
    have hcons : ((readFrom rest rest).cons a).error? = (readFrom rest rest).error? := rfl
    rw [readFrom_closed_append ha hv hend, assignmentItems_assignment_append ha hend,
      List.getLast?_cons, hcons, ih]
    cases (assignmentItems rest).getLast? with
    | none => exact hnone.symm
    | some i => rfl
  | unclosed a ha hv =>
    rw [readFrom_unclosed ha hv, assignmentItems_text ha]
    rfl

/-! ## The line, parted behind the last assignment -/

/-- Either no assignment is kept and all of the text is left, or the text is parted where its rest
begins. -/
theorem readFrom_cases (s : List Char) :
    (∃ error?, ∀ kept, readFrom kept s = ⟨[], kept, error?⟩) ∨
      ∃ front rest as error?, s = front ++ rest ∧ ∀ kept,
        readFrom kept s = ⟨as, rest, error?⟩ ∧ readFrom kept front = ⟨as, [], none⟩ ∧
          readFrom kept rest = ⟨[], kept, error?⟩ := by
  induction s using front_induction with
  | stop s h => exact .inl ⟨none, fun kept => readFrom_of_stop h⟩
  | blank run rest hrun hend ih =>
    obtain ⟨error?, h⟩ | ⟨front, left, as, error?, rfl, h⟩ := ih
    · exact .inl ⟨error?, fun kept => by rw [readFrom_blank_append hrun.2, h]⟩
    · refine .inr ⟨run ++ front, left, as, error?, (List.append_assoc ..).symm, fun kept => ?_⟩
      rw [readFrom_blank_append hrun.2, readFrom_blank_append hrun.2]
      exact h kept
  | closed a rest ha hv hend ih =>
    obtain ⟨error?, h⟩ | ⟨front, left, as, error?, rfl, h⟩ := ih
    · refine .inr ⟨a.text, rest, [a], error?, rfl, fun kept =>
        ⟨?_, readFrom_closed ha hv, h kept⟩⟩
      rw [readFrom_closed_append ha hv hend, h]
      rfl
    · refine .inr ⟨a.text ++ front, left, a :: as, error?, (List.append_assoc ..).symm,
        fun kept => ⟨?_, ?_, (h kept).2.2⟩⟩
      · rw [readFrom_closed_append ha hv hend, (h _).1]
        rfl
      · rw [readFrom_closed_append ha hv hend.of_append, (h _).2.1]
        rfl
  | unclosed a ha hv => exact .inl ⟨_, fun kept => readFrom_unclosed ha hv⟩

/-- **The line is parted where its rest begins**: the front alone has the same assignments and
nothing else, and the rest alone has no assignment and the same error. -/
theorem exists_append_rest (s : List Char) :
    ∃ front, s = front ++ (read s).rest ∧ read front = ⟨(read s).assignments, [], none⟩ ∧
      read (read s).rest = ⟨[], (read s).rest, (read s).error?⟩ := by
  obtain ⟨error?, h⟩ | ⟨front, rest, as, error?, hs, h⟩ := readFrom_cases s
  · have hread : read s = ⟨[], s, error?⟩ := h s
    refine ⟨[], by rw [hread]; rfl, by rw [hread, read, readFrom], by rw [hread, hread]⟩
  · have hread : read s = ⟨as, rest, error?⟩ := (h s).1
    rw [hread]
    exact ⟨front, hs, (h front).2.1, (h rest).2.2⟩

end Leading

/-- **A command is parted cleanly at its offset.**  The line behind it has no assignment and the
same program, arguments and errors; the line in front of it has the same assignments and nothing
else. -/
theorem Command.parse_drop_and_take_offset (s : List Char) :
    let c : Command := parse s
    parse (s.drop c.offset) = { c with assignments := [], offset := 0 } ∧
      parse (s.take c.offset) = { c with program := .word [], arguments := [], errors := [] } := by
  obtain ⟨front, hs, hfront, hrest⟩ := Leading.exists_append_rest s
  rcases hread : Leading.read s with ⟨as, rest, error?⟩
  rw [hread] at hs hfront hrest
  subst hs
  have hlength : (front ++ rest).length - rest.length = front.length := by simp
  simp only [parse, hread, hlength, List.drop_left, List.take_left, hfront, hrest]
  simp [values]

end ShellLine
