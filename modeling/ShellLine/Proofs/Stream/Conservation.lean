import ShellLine.Proofs.Stream.Runs

/-!
# Proofs/Stream/Conservation — which bytes of a stream are lost

What has been passed on and what is pending are the bytes that came in, in the same order, without
those that `Input.lost` names (`run_conserves_iff`).  There is one place where bytes are lost: in
front of the first mark of a paste, when they are the beginning of a key only.

The engine is `absorb_without`, an induction over the marks of the bytes; runs are put together by
`IsWithout.append` and `IsWithout.trans`.
-/

open scoped List

namespace ShellLine

/-! ## Bytes without other bytes -/

/-- The bytes `kept` are what is left over of `all`, in the same order, without `lost`. -/
structure IsWithout (all lost kept : List UInt8) : Prop where
  sublist : kept.Sublist all
  perm : (kept ++ lost).Perm all

namespace IsWithout

variable {all lost kept all' lost' kept' : List UInt8}

protected theorem refl (all : List UInt8) : IsWithout all [] all :=
  ⟨List.Sublist.refl all, by rw [List.append_nil]⟩

theorem append_right (kept lost : List UInt8) : IsWithout (kept ++ lost) lost kept :=
  ⟨List.sublist_append_left kept lost, List.Perm.refl _⟩

theorem append (h : IsWithout all lost kept) (h' : IsWithout all' lost' kept') :
    IsWithout (all ++ all') (lost ++ lost') (kept ++ kept') := by
  refine ⟨h.sublist.append h'.sublist, List.Perm.trans ?_ (h.perm.append h'.perm)⟩
  simp only [List.append_assoc, List.perm_append_left_iff]
  exact List.perm_append_comm_assoc kept' lost lost'

theorem trans (h : IsWithout all lost kept) (h' : IsWithout kept lost' kept') :
    IsWithout all (lost ++ lost') kept' := by
  refine ⟨h'.sublist.trans h.sublist, List.Perm.trans ?_ h.perm⟩
  calc kept' ++ (lost ++ lost')
      _ ~ kept' ++ (lost' ++ lost) := List.perm_append_comm.append_left kept'
      _ = kept' ++ lost' ++ lost := (List.append_assoc kept' lost' lost).symm
      _ ~ kept ++ lost := h'.perm.append_right lost

/-- All bytes are kept exactly when none is lost. -/
theorem eq_iff (h : IsWithout all lost kept) : kept = all ↔ lost = [] := by
  have hlen := h.perm.length_eq
  rw [List.length_append] at hlen
  constructor
  · rintro rfl
    exact List.length_eq_zero_iff.1 (by omega)
  · rintro rfl
    exact h.sublist.eq_of_length hlen

end IsWithout

/-! ## One read -/

/-- The bytes in front of pastes that are too few to be a key. -/
def lostBy (pasting : Bool) (data : List UInt8) : List UInt8 :=
  if pasting then
    match h : splitAtMark? pasteEnd data with
    | none => []
    | some (_, after) =>
      have := length_of_splitAtMark? pasteEnd_ne_nil h
      lostBy false after
  else
    match h : splitAtMark? pasteStart data with
    | none => []
    | some (before, after) =>
      have := length_of_splitAtMark? pasteStart_ne_nil h
      (splitKeys before).2 ++ lostBy true after
termination_by data.length

section

variable {data before body : List UInt8}

theorem lostBy_of_held (h : ¬ pasteStart <:+: data) : lostBy false data = [] := by
  have hfind := (splitAtMark?_eq_none_iff pasteStart_ne_nil).2 h
  rw [lostBy, if_neg Bool.false_ne_true]
  split <;> simp_all

theorem lostBy_of_start (h : ¬ pasteStart <:+: before) (after : List UInt8) :
    lostBy false (before ++ (pasteStart ++ after)) = (splitKeys before).2 ++ lostBy true after := by
  have hfind := splitAtMark?_append_pasteStart after h
  rw [lostBy, if_neg Bool.false_ne_true]
  split <;> simp_all

theorem lostBy_of_opened (h : ¬ pasteEnd <:+: body) : lostBy true body = [] := by
  have hfind := (splitAtMark?_eq_none_iff pasteEnd_ne_nil).2 h
  rw [lostBy, if_pos rfl]
  split <;> simp_all

theorem lostBy_of_closed (h : ¬ pasteEnd <:+: body) (after : List UInt8) :
    lostBy true (body ++ (pasteEnd ++ after)) = lostBy false after := by
  have hfind := splitAtMark?_append_pasteEnd after h
  rw [lostBy, if_pos rfl]
  split <;> simp_all

end

/-- Bytes, inside a paste or outside, in which every paste comes behind whole keys. -/
inductive CutsNoKey : Bool → List UInt8 → Prop
  | held {data : List UInt8} (hdata : ¬ pasteStart <:+: data) : CutsNoKey false data
  | start {keys : List (List UInt8)} {after : List UInt8} (hkeys : IsKeyRun keys)
      (hafter : CutsNoKey true after) : CutsNoKey false (keys.flatten ++ (pasteStart ++ after))
  | opened {body : List UInt8} (hbody : ¬ pasteEnd <:+: body) : CutsNoKey true body
  | closed {body after : List UInt8} (hbody : ¬ pasteEnd <:+: body)
      (hafter : CutsNoKey false after) : CutsNoKey true (body ++ (pasteEnd ++ after))

theorem CutsNoKey.lostBy_eq_nil {pasting : Bool} {data : List UInt8} (h : CutsNoKey pasting data) :
    lostBy pasting data = [] := by
  induction h with
  | held hdata => exact lostBy_of_held hdata
  | start hkeys _ ih =>
    rw [lostBy_of_start hkeys.noStart, hkeys.splitKeys_flatten, ih]
    rfl
  | opened hbody => exact lostBy_of_opened hbody
  | closed hbody _ ih => rw [lostBy_of_closed hbody, ih]

theorem cutsNoKey_of_lostBy_eq_nil (pasting : Bool) (data : List UInt8) :
    lostBy pasting data = [] → CutsNoKey pasting data := by
  induction pasting, data using marks_induction with
  | held data hdata => exact fun _ => .held hdata
  | start before after hbefore ih =>
    rw [lostBy_of_start hbefore, List.append_eq_nil_iff]
    rintro ⟨htail, hlost⟩
    have hkeys : (splitKeys before).1.flatten = before := by
      rw [← List.append_nil (splitKeys before).1.flatten, ← htail, flatten_splitKeys]
    rw [← hkeys] at hbefore ⊢
    exact .start ⟨isKey_of_mem_splitKeys, hbefore⟩ (ih hlost)
  | opened body hbody => exact fun _ => .opened hbody
  | closed body after hbody ih =>
    rw [lostBy_of_closed hbody]
    exact fun hlost => .closed hbody (ih hlost)

/-- Nothing is lost exactly when whole keys stand in front of every paste. -/
theorem lostBy_eq_nil_iff {pasting : Bool} {data : List UInt8} :
    lostBy pasting data = [] ↔ CutsNoKey pasting data :=
  ⟨cutsNoKey_of_lostBy_eq_nil pasting data, CutsNoKey.lostBy_eq_nil⟩

/-- **Taking bytes in loses those in front of a paste that are not a whole key, and no others.** -/
theorem absorb_without (pasting : Bool) (data : List UInt8) :
    IsWithout (Pending.ofData pasting data).bytes (lostBy pasting data)
      ((absorb pasting data).1.flatten ++ (absorb pasting data).2.bytes) := by
  induction pasting, data using marks_induction with
  | held data hdata =>
    rw [absorb_of_held hdata, lostBy_of_held hdata]
    exact (flatten_splitKeys data).symm ▸ .refl data
  | start before after hbefore ih =>
    have hkeys := IsWithout.append_right (splitKeys before).1.flatten (splitKeys before).2
    rw [flatten_splitKeys] at hkeys
    rw [absorb_of_start hbefore, lostBy_of_start hbefore, List.flatten_append, List.append_assoc]
    exact hkeys.append ih
  | opened body hbody =>
    rw [absorb_of_opened hbody, lostBy_of_opened hbody]
    exact .refl _
  | closed body after hbody ih =>
    have hdata : (Pending.ofData true (body ++ (pasteEnd ++ after))).bytes =
        pasteSequence body ++ after := by
      simp [Pending.ofData, Pending.bytes, pasteSequence]
    rw [absorb_of_closed hbody, lostBy_of_closed hbody, hdata, List.flatten_cons,
      List.append_assoc]
    exact (IsWithout.refl _).append ih

/-! ## All reads -/

namespace Input

/-- The bytes that a step loses in front of pastes. -/
def lostAt (i : Input) : Step → List UInt8
  | .read data => lostBy i.pending.isPasting (i.pending.data ++ data)
  | _ => []

/-- The bytes that some steps lose in front of pastes, in the order in which they came. -/
def lost (i : Input) : List Step → List UInt8
  | [] => []
  | s :: steps => i.lostAt s ++ (i.step s).2.lost steps

/-- Is every paste that the reads bring behind whole keys? -/
def KeepsKeys (i : Input) : List Step → Prop
  | [] => True
  | s :: steps =>
    (∀ data, s = .read data → CutsNoKey i.pending.isPasting (i.pending.data ++ data)) ∧
      (i.step s).2.KeepsKeys steps

theorem lost_eq_nil_iff : ∀ (steps : List Step) (i : Input), i.lost steps = [] ↔ i.KeepsKeys steps
  | [], _ => by simp [lost, KeepsKeys]
  | s :: steps, i => by
      rw [lost, KeepsKeys, List.append_eq_nil_iff, lost_eq_nil_iff steps]
      cases s <;> simp [lostAt, lostBy_eq_nil_iff]

theorem process_without (i : Input) (data : List UInt8) :
    IsWithout (i.pending.bytes ++ data) (i.lostAt (.read data))
      ((i.process data).1.flatten ++ (i.process data).2.pending.bytes) := by
  rw [process_eq, List.flatten_append, List.append_assoc, bytes_settle, ← Pending.bytes_ofData]
  exact absorb_without _ _

/-- **Reads lose what stands in front of a paste and is not a whole key, and nothing else.** -/
theorem run_without (steps : List Step) (i : Input) (hs : i.isUndisturbed steps = true) :
    IsWithout (i.pending.bytes ++ received steps) (i.lost steps)
      ((i.run steps).1.flatten ++ (i.run steps).2.pending.bytes) := by
  revert steps i
  refine run_of_undisturbed ?_ ?_ ?_
  · exact fun i => by simpa [run, lost] using IsWithout.refl i.pending.bytes
  · intro i data steps ih
    have hread := (process_without i data).append (.refl (received steps))
    rw [List.append_nil, List.append_assoc, List.append_assoc] at hread
    have hrest := (IsWithout.refl (i.process data).1.flatten).append ih
    rw [received_cons, run, step, List.flatten_append, List.append_assoc]
    exact hread.trans hrest
  · intro i ticks steps hw ih
    rw [run, step, hw, lost, step, hw]
    exact ih

/-- **A stream keeps all bytes exactly when every paste comes behind whole keys.**  Otherwise the
beginnings of keys in front of pastes are lost; no byte comes twice and none changes its place. -/
theorem run_conserves_iff (clocked : Bool) (timeout : Int) {steps : List Step}
    (hs : (fresh clocked timeout).isUndisturbed steps = true) :
    let r := (fresh clocked timeout).run steps
    IsWithout (received steps) ((fresh clocked timeout).lost steps)
        (r.1.flatten ++ r.2.pending.bytes) ∧
      (r.1.flatten ++ r.2.pending.bytes = received steps ↔
        (fresh clocked timeout).KeepsKeys steps) := by
  have h := run_without steps (fresh clocked timeout) hs
  exact ⟨h, h.eq_iff.trans (lost_eq_nil_iff steps _)⟩

/-- An arrow key that two reads bring in front of a paste is kept. -/
theorem run_conserves_arrow_before_paste :
    let steps : List Step :=
      [.read [0x1b, 0x5b], .wait 5, .read (0x41 :: pasteSequence [0x68]), .read [0xc3]]
    let r := (fresh true 10).run steps
    r.1.flatten ++ r.2.pending.bytes = received steps := by
  refine (run_conserves_iff true 10 ?_).2.2 ((lost_eq_nil_iff _ _).1 ?_)
  · decide +kernel
  · decide +kernel

/-- An escape in front of a paste is lost. -/
theorem run_loses_escape_before_paste :
    let steps : List Step := [.read (0x1b :: pasteSequence [0x68])]
    let r := (fresh true 10).run steps
    (fresh true 10).isUndisturbed steps = true ∧
      r.1.flatten ++ r.2.pending.bytes ≠ received steps := by
  decide +kernel

end Input

end ShellLine
