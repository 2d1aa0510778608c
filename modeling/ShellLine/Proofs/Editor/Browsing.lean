import ShellLine.Proofs.Editor.Runs

/-!
# Proofs/Editor/Browsing — the draft outlives a walk through the history

A visit to the history begins with a step back from the line that is being typed, and ends with the
step that leads back to it.  In between an entry is recalled all the time, and whatever is done to
recalled lines, the line that was being typed lies aside: `IsBrowsing` says so, and each event that
does not end the visit keeps it up (`IsBrowsing.handle`).  Hence the visit ends where it began
(`line_run_visit`).

At its beginning nothing may lie aside yet.  That is so in every editor that one can get to
(`IsReachable.isOrderly`).
-/

namespace ShellLine

namespace Editor

variable {shared : Bindings} {ed : Editor}

/-! ## Steps to an entry -/

/-- A step to an older entry puts the line aside, unless one lies there, and shows the entry. -/
theorem exists_recallOlder (hpos : 0 < ed.history.older.position) :
    ∃ entry, ed.history.entries[ed.history.older.position - 1]? = some entry ∧
      ed.recallOlder =
        { ed with
          line := .between entry []
          history := ed.history.older
          draft? := some (ed.draft?.getD ed.line) } := by
  obtain ⟨entry, hentry, hcurrent⟩ := History.exists_current? hpos ed.history.position_older_le
  refine ⟨entry, hentry, ?_⟩
  rw [recallOlder_of_some hcurrent, Line.toEnd_eq_between]
  rfl

/-- A step to a newer entry shows it. -/
theorem exists_recallNewer (hle : ed.history.position ≤ ed.history.entries.length)
    (hpos : 0 < ed.history.newer.position) :
    ∃ entry, ed.history.entries[ed.history.newer.position - 1]? = some entry ∧
      ed.recallNewer = { ed with line := .between entry [], history := ed.history.newer } := by
  obtain ⟨entry, hentry, hcurrent⟩ :=
    History.exists_current? hpos (History.position_newer_le hle)
  have hne : ed.history.position ≠ 0 := Nat.ne_of_gt (Nat.lt_of_lt_of_le hpos (Nat.sub_le ..))
  refine ⟨entry, hentry, ?_⟩
  rw [recallNewer_of_some hne hcurrent, Line.toEnd_eq_between]
  rfl

/-! ## Editors that one can get to -/

/-- The editors that one can get to.  A new one may have a history that was used before.  From
outside the line may be replaced, and a line may be entered as long as no entry is recalled. -/
inductive IsReachable : Editor → Prop
  | fresh (wordChars : List Char) (bindings? : Option Bindings) {h : History}
      (hh : h.position ≤ h.entries.length) : IsReachable (fresh wordChars h bindings?)
  | handle (shared : Bindings) {ed : Editor} (hed : IsReachable ed) (e : Event) :
      IsReachable (ed.handle shared e).editor
  | setText {ed : Editor} (hed : IsReachable ed) (s : List Char) : IsReachable (ed.setText s)
  | pushHistory {ed : Editor} (hed : IsReachable ed) (hzero : ed.history.position = 0)
      (s : List Char) : IsReachable (ed.pushHistory s)

/-- The position stands on an entry or at the line that is being typed, and there nothing lies
aside. -/
structure IsOrderly (ed : Editor) : Prop where
  position_le : ed.history.position ≤ ed.history.entries.length
  draft_eq_none : ed.history.position = 0 → ed.draft? = none

/-- An editor that an entry was pushed into stands at the line that is being typed. -/
theorem IsOrderly.of_push {s : List Char} (hs : s ≠ []) {h : History}
    (hhistory : ed.history = h.push s) (hdraft : ed.draft? = none) : ed.IsOrderly where
  position_le := by
    rw [hhistory, History.push_of_ne_nil hs]
    exact Nat.zero_le _
  draft_eq_none _ := hdraft

namespace IsOrderly

theorem recallOlder (ho : ed.IsOrderly) : ed.recallOlder.IsOrderly := by
  have hle := ed.history.position_older_le
  rcases Nat.eq_zero_or_pos ed.history.older.position with hzero | hpos
  · -- there is no entry, so none was recalled before
    have hmin : min (ed.history.position + 1) ed.history.entries.length = 0 := hzero
    have hposition := ho.position_le
    rw [recallOlder_of_none (History.current?_of_position hzero)]
    exact ⟨hle, fun _ => ho.draft_eq_none (by omega)⟩
  · obtain ⟨entry, -, hrecall⟩ := exists_recallOlder hpos
    rw [hrecall]
    exact ⟨hle, fun hzero => absurd hzero (Nat.ne_of_gt hpos)⟩

theorem recallNewer (ho : ed.IsOrderly) : ed.recallNewer.IsOrderly := by
  have hle := History.position_newer_le ho.position_le
  rcases eq_or_ne ed.history.position 0 with hzero | hne
  · rw [recallNewer_of_position hzero]
    exact ho
  · rcases Nat.eq_zero_or_pos ed.history.newer.position with hzero | hpos
    · rw [recallNewer_of_none hne (History.current?_of_position hzero)]
      exact ⟨hle, fun _ => rfl⟩
    · obtain ⟨entry, -, hrecall⟩ := exists_recallNewer ho.position_le hpos
      rw [hrecall]
      exact ⟨hle, fun hzero => absurd hzero (Nat.ne_of_gt hpos)⟩

theorem handle (ho : ed.IsOrderly) (e : Event) : (ed.handle shared e).editor.IsOrderly := by
  refine handle_cases (motive := fun ed _ => ed.IsOrderly) shared ed e ?older ?newer ?submit ?clear
    ?exit ?edit
  case older => exact fun _ => ho.recallOlder
  case newer => exact fun _ => ho.recallNewer
  case submit =>
    intro _
    rcases eq_or_ne ed.line.text [] with hnil | hne
    · rw [submit_of_nil hnil]
      exact ho
    · rw [submit_of_ne_nil hne]
      exact of_push hne rfl rfl
  case clear => exact fun _ => ⟨Nat.zero_le _, fun _ => rfl⟩
  case exit => exact fun _ => ho
  case edit => exact fun _ _ => ⟨ho.position_le, ho.draft_eq_none⟩

end IsOrderly

theorem IsReachable.isOrderly (h : ed.IsReachable) : ed.IsOrderly := by
  induction h with
  | fresh wordChars bindings? hh => exact ⟨hh, fun _ => rfl⟩
  | handle shared _ e ih => exact ih.handle e
  | setText _ s ih => exact ⟨ih.position_le, ih.draft_eq_none⟩
  | pushHistory _ hzero s ih =>
    rcases eq_or_ne s [] with rfl | hne
    · exact ih
    · exact .of_push hne rfl (ih.draft_eq_none hzero)

theorem IsReachable.run (h : ed.IsReachable) (es : List Event) :
    (ed.run shared es).1.IsReachable :=
  run_induction (fun _ e h => h.handle shared e) h es

/-! ## Recalling an entry -/

/-- Does the event walk over the history? -/
def Walks (shared : Bindings) (ed : Editor) (e : Event) : Prop :=
  ed.actionFor? shared e = some .historyUp ∨ ed.actionFor? shared e = some .historyDown

/-- The line is the entry that the position stands on, with the cursor at its end. -/
def ShowsEntry (entries : List (List Char)) (ed : Editor) : Prop :=
  ∃ entry, entries[ed.history.position - 1]? = some entry ∧ ed.line = .between entry []

theorem showsEntry_recallOlder (hpos : 0 < ed.recallOlder.history.position) :
    ed.recallOlder.ShowsEntry ed.history.entries := by
  rw [history_recallOlder] at hpos
  obtain ⟨entry, hentry, hrecall⟩ := exists_recallOlder hpos
  rw [hrecall]
  exact ⟨entry, hentry, rfl⟩

theorem showsEntry_recallNewer (hle : ed.history.position ≤ ed.history.entries.length)
    (hpos : 0 < ed.recallNewer.history.position) :
    ed.recallNewer.ShowsEntry ed.history.entries := by
  rw [history_recallNewer] at hpos
  obtain ⟨entry, hentry, hrecall⟩ := exists_recallNewer hle hpos
  rw [hrecall]
  exact ⟨entry, hentry, rfl⟩

/-- **A step that leads to an entry shows it**, whatever the line was before. -/
theorem showsEntry_handle (hle : ed.history.position ≤ ed.history.entries.length) {e : Event}
    (he : ed.Walks shared e) (hpos : 0 < (ed.handle shared e).editor.history.position) :
    (ed.handle shared e).editor.ShowsEntry ed.history.entries := by
  rcases he with hup | hdown
  · rw [handle_of_actionFor? hup] at hpos ⊢
    exact showsEntry_recallOlder hpos
  · rw [handle_of_actionFor? hdown] at hpos ⊢
    exact showsEntry_recallNewer hle hpos

/-! ## Visits -/

/-- An entry is recalled, and the line `draft` lies aside. -/
structure IsBrowsing (entries : List (List Char)) (draft : Line) (ed : Editor) : Prop where
  entries_eq : ed.history.entries = entries
  draft_eq : ed.draft? = some draft
  position_pos : 0 < ed.history.position
  position_le : ed.history.position ≤ entries.length

/-- Is an entry recalled after each of the events? -/
def KeepsRecalling (shared : Bindings) (ed : Editor) : List Event → Prop
  | [] => True
  | e :: es =>
    0 < (ed.handle shared e).editor.history.position ∧
      KeepsRecalling shared (ed.handle shared e).editor es

instance decidableKeepsRecalling (shared : Bindings) :
    ∀ (ed : Editor) (es : List Event), Decidable (ed.KeepsRecalling shared es)
  | _, [] => isTrue trivial
  | _, _ :: es => @instDecidableAnd _ _ _ (decidableKeepsRecalling shared _ es)

/-- A visit to the history: an event that steps back from the line that is being typed, events
after which an entry is recalled, and an event that steps to the line that is being typed.  None of
those in between enters a line or clears it, for after that no entry would be recalled. -/
structure IsVisit (shared : Bindings) (ed : Editor) (first : Event) (between : List Event)
    (last : Event) : Prop where
  begins : ed.actionFor? shared first = some .historyUp
  recalls : (ed.handle shared first).editor.KeepsRecalling shared between
  ends : (ed.run shared (first :: between)).1.actionFor? shared last = some .historyDown
  returns : (ed.run shared (first :: between ++ [last])).1.history.position = 0

/-- The step back from the line that is being typed puts it aside. -/
theorem isBrowsing_recallOlder (ho : ed.IsOrderly) (hzero : ed.history.position = 0)
    (hentries : ed.history.entries ≠ []) :
    ed.recallOlder.IsBrowsing ed.history.entries ed.line := by
  have hlen := List.length_pos_iff.2 hentries
  have hposition : ed.history.older.position = 1 := by
    rw [History.older, hzero]
    exact Nat.min_eq_left hlen
  have hpos : 0 < ed.history.older.position := by
    rw [hposition]
    exact Nat.one_pos
  obtain ⟨entry, -, hrecall⟩ := exists_recallOlder hpos
  rw [hrecall, ho.draft_eq_none hzero]
  exact ⟨rfl, rfl, hpos, ed.history.position_older_le⟩

namespace IsBrowsing

variable {entries : List (List Char)} {draft : Line}

/-- **As long as an entry is recalled, the draft lies aside.** -/
theorem handle (h : ed.IsBrowsing entries draft) {e : Event}
    (hpos : 0 < (ed.handle shared e).editor.history.position) :
    (ed.handle shared e).editor.IsBrowsing entries draft := by
  revert hpos
  refine handle_cases
    (motive := fun ed' _ => 0 < ed'.history.position → ed'.IsBrowsing entries draft) shared ed e
    ?older ?newer ?submit ?clear ?exit ?edit
  case older =>
    intro _ hpos
    rw [history_recallOlder] at hpos
    obtain ⟨entry, -, hrecall⟩ := exists_recallOlder hpos
    rw [hrecall, h.draft_eq]
    exact ⟨h.entries_eq, rfl, hpos, h.entries_eq ▸ ed.history.position_older_le⟩
  case newer =>
    intro _ hpos
    rw [history_recallNewer] at hpos
    have hle : ed.history.position ≤ ed.history.entries.length := h.entries_eq ▸ h.position_le
    obtain ⟨entry, -, hrecall⟩ := exists_recallNewer hle hpos
    rw [hrecall]
    exact ⟨h.entries_eq, h.draft_eq, hpos, h.entries_eq ▸ History.position_newer_le hle⟩
  case submit =>
    intro _ hpos
    rcases eq_or_ne ed.line.text [] with hnil | hne
    · rw [submit_of_nil hnil]
      exact h
    · rw [history_submit, History.push_of_ne_nil hne] at hpos
      exact absurd hpos (Nat.lt_irrefl 0)
  case clear => exact fun _ hpos => absurd hpos (Nat.lt_irrefl 0)
  case exit => exact fun _ _ => h
  case edit => exact fun _ _ _ => ⟨h.entries_eq, h.draft_eq, h.position_pos, h.position_le⟩

theorem run (h : ed.IsBrowsing entries draft) {es : List Event} (hes : ed.KeepsRecalling shared es) :
    ∀ before, before <+: es → (ed.run shared before).1.IsBrowsing entries draft := by
  induction es generalizing ed with
  | nil =>
    intro before hbefore
    rw [List.prefix_nil.1 hbefore]
    exact h
  | cons e es ih =>
    intro before hbefore
    cases before with
    | nil => exact h
    | cons f before =>
      obtain ⟨rfl, htail⟩ := List.cons_prefix_cons.1 hbefore
      exact ih (h.handle hes.1) hes.2 before htail

end IsBrowsing

/-- The step to the line that is being typed brings the draft back. -/
theorem recallNewer_of_isBrowsing {entries : List (List Char)} {draft : Line}
    (h : ed.IsBrowsing entries draft) (hzero : ed.recallNewer.history.position = 0) :
    ed.recallNewer.line = .between draft.text [] ∧ ed.recallNewer.draft? = none := by
  rw [history_recallNewer] at hzero
  rw [recallNewer_of_none (Nat.ne_of_gt h.position_pos) (History.current?_of_position hzero),
    h.draft_eq]
  exact ⟨Line.toEnd_eq_between draft, rfl⟩

/-- **A visit to the history ends where it began**: at the text that was being typed, with the
cursor at its end, and nothing lies aside.  Each step of the visit that leads to an entry shows that
entry as it was entered, whatever was done to recalled lines. -/
theorem line_run_visit (hed : ed.IsReachable) (hzero : ed.history.position = 0)
    (hentries : ed.history.entries ≠ []) {first last : Event} {between : List Event}
    (hvisit : ed.IsVisit shared first between last) :
    let back := (ed.run shared (first :: between ++ [last])).1
    back.line = .between ed.line.text [] ∧ back.draft? = none ∧
      ∀ before e, before ++ [e] <+: first :: between ++ [last] →
        let now := (ed.run shared before).1
        let next := (now.handle shared e).editor
        now.Walks shared e → 0 < next.history.position → next.ShowsEntry ed.history.entries := by
  intro back
  have hfirst : (ed.handle shared first).editor = ed.recallOlder := by
    rw [handle_of_actionFor? hvisit.begins, perform]
  have hbrowse : ∀ before, before <+: between →
      (ed.run shared (first :: before)).1.IsBrowsing ed.history.entries ed.line := by
    intro before hbefore
    rw [run_cons_fst, hfirst]
    refine (isBrowsing_recallOlder hed.isOrderly hzero hentries).run ?_ before hbefore
    rw [← hfirst]
    exact hvisit.recalls
  have hback : back = (ed.run shared (first :: between)).1.recallNewer := by
    rw [show back = _ from run_append_fst (first :: between) [last], run_cons_fst,
      handle_of_actionFor? hvisit.ends]
    rfl
  obtain ⟨hline, hdraft⟩ := recallNewer_of_isBrowsing (hbrowse between (List.prefix_refl between))
    (hback ▸ hvisit.returns)
  refine ⟨hback ▸ hline, hback ▸ hdraft, ?_⟩
  intro before e hprefix now next he hpos
  cases before with
  | nil => exact showsEntry_handle hed.isOrderly.position_le he hpos
  | cons f before =>
    obtain ⟨rfl, htail⟩ := List.cons_prefix_cons.1 hprefix
    have hbefore : before <+: between := by
      rcases List.prefix_concat_iff.1 htail with heq | hshort
      · exact (List.append_inj_left' heq rfl) ▸ List.prefix_refl before
      · exact (List.prefix_append before [e]).trans hshort
    have h := hbrowse before hbefore
    have hle := h.position_le
    rw [← h.entries_eq] at hle ⊢
    exact showsEntry_handle hle he hpos

/-- The newer of two entries is changed, the older is recalled twice and changed as well, and then
the line that was being typed is back. -/
theorem line_run_visit_changed :
    let up : Event := .press .up .empty
    let down : Event := .press .down .empty
    let enter : Event := .press (.char 'm') .onlyCtrl
    let between := [.paste "!".toList, up, up, .press .backspace .empty, down]
    let ed := ((fresh defaultWordChars (.empty none) none).run .default
      [.paste "one".toList, enter, .paste "two".toList, enter, .paste "draft".toList,
        .press .left .empty]).1
    ed.IsReachable ∧ ed.history.position = 0 ∧ ed.history.entries ≠ [] ∧
      ed.line = ⟨"draft".toList, 4⟩ ∧ ed.IsVisit .default up between down ∧
      let back := (ed.run .default (up :: between ++ [down])).1
      back.line = .between ed.line.text [] ∧ back.draft? = none ∧
        ∀ before e, before ++ [e] <+: up :: between ++ [down] →
          let now := (ed.run .default before).1
          let next := (now.handle .default e).editor
          now.Walks .default e → 0 < next.history.position →
            next.ShowsEntry ed.history.entries := by
  intro up down enter between ed
  have hed : ed.IsReachable := (IsReachable.fresh _ _ (Nat.le_refl 0)).run _
  have hzero : ed.history.position = 0 := by decide +kernel
  have hentries : ed.history.entries ≠ [] := by decide +kernel
  have hvisit : ed.IsVisit .default up between down :=
    ⟨by decide +kernel, by decide +kernel, by decide +kernel, by decide +kernel⟩
  exact ⟨hed, hzero, hentries, by decide +kernel, hvisit,
    line_run_visit hed hzero hentries hvisit⟩

end Editor

end ShellLine
