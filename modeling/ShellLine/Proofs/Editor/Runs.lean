import ShellLine.Editor.Basic
import ShellLine.Proofs.Editor.History
import ShellLine.Proofs.Line.Between

/-!
# Proofs/Editor/Runs — what happens to an editor, one event after the other

Actions either change the line alone, or the history takes part in them.  All that change the line
alone are runs of operations on it, and so is typing; thus an event does one of six things, and
`handle_cases` names them.

* `handle_cases` is the case distinction on what an event does.
* `run` applies events one after the other, and `run_induction` carries an invariant through a run.
-/

namespace ShellLine

/-! ## Recalling, entering, clearing

What each of the actions does that the history takes part in. -/

namespace Editor

variable {ed : Editor}

theorem recallOlder_of_none (h : ed.history.older.current? = none) :
    ed.recallOlder = { ed with history := ed.history.older } := by
  simp only [recallOlder, h]

theorem recallOlder_of_some {entry : List Char} (h : ed.history.older.current? = some entry) :
    ed.recallOlder =
      { ed with
        line := (Line.ofText entry).toEnd
        history := ed.history.older
        draft? := some (ed.draft?.getD ed.line) } := by
  simp only [recallOlder, h, setText]

theorem recallNewer_of_position (h : ed.history.position = 0) : ed.recallNewer = ed :=
  if_pos h

theorem recallNewer_of_none (hpos : ed.history.position ≠ 0)
    (h : ed.history.newer.current? = none) :
    ed.recallNewer =
      { ed with
        line := (ed.draft?.getD .empty).toEnd
        history := ed.history.newer
        draft? := none } := by
  simp only [recallNewer, if_neg hpos, h]

theorem recallNewer_of_some {entry : List Char} (hpos : ed.history.position ≠ 0)
    (h : ed.history.newer.current? = some entry) :
    ed.recallNewer =
      { ed with line := (Line.ofText entry).toEnd, history := ed.history.newer } := by
  simp only [recallNewer, if_neg hpos, h, setText]

@[simp] theorem history_recallOlder (ed : Editor) :
    ed.recallOlder.history = ed.history.older := by
  cases h : ed.history.older.current? with
  | none => rw [recallOlder_of_none h]
  | some entry => rw [recallOlder_of_some h]

@[simp] theorem history_recallNewer (ed : Editor) :
    ed.recallNewer.history = ed.history.newer := by
  rcases eq_or_ne ed.history.position 0 with hzero | hne
  · rw [recallNewer_of_position hzero, History.newer_of_position hzero]
  · cases h : ed.history.newer.current? with
    | none => rw [recallNewer_of_none hne h]
    | some entry => rw [recallNewer_of_some hne h]

theorem submit_of_nil (h : ed.line.text = []) : ed.submit = (ed, []) := by
  rw [submit, Line.isEmpty, h]
  rfl

theorem submit_of_ne_nil (h : ed.line.text ≠ []) :
    ed.submit =
      ({ ed with line := .empty, history := ed.history.push ed.line.text, draft? := none },
        [.submitted ed.line.text ed.line.command]) := by
  rw [submit, if_neg]
  rwa [Line.isEmpty, List.isEmpty_iff]

@[simp] theorem history_submit (ed : Editor) :
    ed.submit.1.history = ed.history.push ed.line.text := by
  rcases eq_or_ne ed.line.text [] with hnil | hne
  · rw [submit_of_nil hnil, hnil, History.push_nil]
  · rw [submit_of_ne_nil hne]

end Editor

/-! ## What an event does -/

/-- Does the action change the line alone? -/
def Action.isEdit : Action → Bool
  | historyUp | historyDown | clearLine | submit | exit => false
  | _ => true

namespace Editor

variable {shared : Bindings} {ed : Editor}

/-- The action that an event stands for. -/
def actionFor? (shared : Bindings) (ed : Editor) (e : Event) : Option Action :=
  (ed.bindings shared).actionFor? e

theorem perform_of_isEdit (ed : Editor) {a : Action} (ha : a.isEdit = true) :
    ∃ ops, ed.perform a = (ed.mapLine (·.applyAll ops), []) := by
  cases a with
  | cursorLeft => exact ⟨[.back 1], rfl⟩
  | cursorRight => exact ⟨[.forward 1], rfl⟩
  | cursorWordLeft => exact ⟨[.backWord ed.isBoundary], rfl⟩
  | cursorWordRight => exact ⟨[.forwardWord ed.isBoundary], rfl⟩
  | cursorLineStart => exact ⟨[.toStart], rfl⟩
  | cursorLineEnd => exact ⟨[.toEnd], rfl⟩
  | deleteCharBackward => exact ⟨[.remove], rfl⟩
  | deleteCharForward => exact ⟨[.removeNext], rfl⟩
  | deleteWordBackward => exact ⟨[.removeWord ed.isBoundary], rfl⟩
  | deleteToLineEnd => exact ⟨[.removeEnd], rfl⟩
  | historyUp | historyDown | clearLine | submit | exit => contradiction

/-- An event that is bound to an action does that. -/
theorem handle_of_actionFor? {e : Event} {a : Action} (h : ed.actionFor? shared e = some a) :
    ed.handle shared e =
      ⟨(ed.perform a).1, some (.performed a), (ed.perform a).2⟩ := by
  rw [actionFor?] at h
  simp only [handle, h]

/-- An event that is bound to nothing types a text, perhaps an empty one. -/
theorem handle_of_actionFor?_none {e : Event} (h : ed.actionFor? shared e = none) :
    ∃ ops, (ed.handle shared e).editor = ed.mapLine (·.applyAll ops) ∧
      (ed.handle shared e).signals = [] := by
  rw [actionFor?] at h
  simp only [handle, h]
  split
  next s _ =>
    refine ⟨s.map .insert, ?_, rfl⟩
    rw [mapLine, mapLine, Line.insertText_eq_applyAll]
  next => exact ⟨[], rfl, rfl⟩

/-- **What an event does**: it walks over the history, enters the line, clears it, asks to leave,
or changes the line alone. -/
@[elab_as_elim]
theorem handle_cases {motive : Editor → List Signal → Prop} (shared : Bindings) (ed : Editor)
    (e : Event)
    (older : ed.actionFor? shared e = some .historyUp → motive ed.recallOlder [])
    (newer : ed.actionFor? shared e = some .historyDown → motive ed.recallNewer [])
    (submit : ed.actionFor? shared e = some .submit → motive ed.submit.1 ed.submit.2)
    (clear : ed.actionFor? shared e = some .clearLine → motive ed.clearLine [])
    (exit : ed.actionFor? shared e = some .exit → motive ed [.exited])
    (edit : ∀ ops, (ed.actionFor? shared e).all Action.isEdit = true →
      motive (ed.mapLine (·.applyAll ops)) []) :
    motive (ed.handle shared e).editor (ed.handle shared e).signals := by
  cases h : ed.actionFor? shared e with
  | none =>
    obtain ⟨ops, hed, hsignals⟩ := handle_of_actionFor?_none h
    rw [hed, hsignals]
    refine edit ops ?_
    rw [h]
    rfl
  | some a =>
    rw [handle_of_actionFor? h]
    cases ha : a.isEdit with
    | true =>
      obtain ⟨ops, hops⟩ := ed.perform_of_isEdit ha
      rw [hops]
      refine edit ops ?_
      rw [h]
      exact ha
    | false =>
      cases a with
      | historyUp => exact older h
      | historyDown => exact newer h
      | submit => exact submit h
      | clearLine => exact clear h
      | exit => exact exit h
      | _ => contradiction

/-! ## Runs -/

/-- Apply events one after the other: the editor after them, and what the outside was told. -/
def run (shared : Bindings) (ed : Editor) : List Event → Editor × List Signal
  | [] => (ed, [])
  | e :: es =>
    let o := ed.handle shared e
    let r := run shared o.editor es
    (r.1, o.signals ++ r.2)

@[simp] theorem run_cons_fst (e : Event) (es : List Event) :
    (ed.run shared (e :: es)).1 = ((ed.handle shared e).editor.run shared es).1 := rfl

@[simp] theorem run_cons_snd (e : Event) (es : List Event) :
    (ed.run shared (e :: es)).2 =
      (ed.handle shared e).signals ++ ((ed.handle shared e).editor.run shared es).2 := rfl

theorem run_append_fst (es fs : List Event) :
    (ed.run shared (es ++ fs)).1 = ((ed.run shared es).1.run shared fs).1 := by
  induction es generalizing ed with
  | nil => rfl
  | cons e es ih => exact ih

/-- What every event keeps up, a run keeps up. -/
theorem run_induction {motive : Editor → Prop}
    (hstep : ∀ ed e, motive ed → motive (ed.handle shared e).editor)
    (h : motive ed) (es : List Event) : motive (ed.run shared es).1 := by
  induction es generalizing ed with
  | nil => exact h
  | cons e es ih => exact ih (hstep ed e h)

/-! ## The limit stays

No event changes how many entries the history may have. -/

@[simp] theorem limit?_handle (shared : Bindings) (ed : Editor) (e : Event) :
    (ed.handle shared e).editor.history.limit? = ed.history.limit? := by
  refine handle_cases (motive := fun ed' _ => ed'.history.limit? = ed.history.limit?) shared ed e
    ?older ?newer ?submit ?clear ?exit ?edit
  case older =>
    intro _
    rw [history_recallOlder, History.older]
  case newer =>
    intro _
    rw [history_recallNewer, History.newer]
  case submit =>
    intro _
    rw [history_submit, History.limit?_push]
  case clear => exact fun _ => rfl
  case exit => exact fun _ => rfl
  case edit => exact fun _ _ => rfl

theorem limit?_run (shared : Bindings) (ed : Editor) (es : List Event) :
    (ed.run shared es).1.history.limit? = ed.history.limit? :=
  run_induction (motive := fun ed' => ed'.history.limit? = ed.history.limit?)
    (fun _ _ h => by rw [limit?_handle, h]) rfl es

end Editor

end ShellLine
