import ShellLine.Proofs.Editor.Runs

/-!
# Proofs/Editor/Submissions — the history is what was entered

A line is entered when an event stands for that and there is any text.  `entered` collects the
texts that a run enters.  A single event adds to the history, and tells the outside, just what it
enters (`entries_handle`, `submissions_handle`); so after a run both hold what was entered, in
order, no matter what was recalled, edited or cleared in between.
-/

namespace ShellLine

/-- The line and the command that the outside is told of. -/
def Signal.submission? : Signal → Option (List Char × Command)
  | submitted text command => some (text, command)
  | exited => none

namespace Editor

/-- Does the event enter the line? -/
def Submits (shared : Bindings) (ed : Editor) (e : Event) : Prop :=
  ed.actionFor? shared e = some .submit ∧ ed.line.text ≠ []
  deriving Decidable

/-- The texts that an event enters: that of the line, or none. -/
def enteredBy (shared : Bindings) (ed : Editor) (e : Event) : List (List Char) :=
  if ed.Submits shared e then [ed.line.text] else []

/-- The texts that are entered by events one after the other. -/
def entered (shared : Bindings) (ed : Editor) : List Event → List (List Char)
  | [] => []
  | e :: es => ed.enteredBy shared e ++ entered shared (ed.handle shared e).editor es

variable {shared : Bindings} {ed : Editor}

/-- **An event that enters the line** keeps its text, tells the outside, and starts a new line. -/
theorem handle_of_submits {e : Event} (h : ed.Submits shared e) :
    (ed.handle shared e).editor =
        { ed with line := .empty, history := ed.history.push ed.line.text, draft? := none } ∧
      (ed.handle shared e).signals = [.submitted ed.line.text ed.line.command] := by
  rw [handle_of_actionFor? h.1, perform, submit_of_ne_nil h.2]
  exact ⟨rfl, rfl⟩

/-- **An event that does not enter the line** leaves the entries, and tells of no line. -/
theorem handle_of_not_submits {e : Event} (h : ¬ed.Submits shared e) :
    (ed.handle shared e).editor.history.entries = ed.history.entries ∧
      (ed.handle shared e).signals.filterMap Signal.submission? = [] := by
  refine handle_cases (motive := fun ed' signals => ed'.history.entries = ed.history.entries ∧
    signals.filterMap Signal.submission? = []) shared ed e ?older ?newer ?submit ?clear ?exit ?edit
  case older =>
    intro _
    rw [history_recallOlder]
    exact ⟨rfl, rfl⟩
  case newer =>
    intro _
    rw [history_recallNewer]
    exact ⟨rfl, rfl⟩
  case submit =>
    intro hsubmit
    have hnil : ed.line.text = [] := by
      by_contra hne
      exact h ⟨hsubmit, hne⟩
    rw [submit_of_nil hnil]
    exact ⟨rfl, rfl⟩
  case clear => exact fun _ => ⟨rfl, rfl⟩
  case exit => exact fun _ => ⟨rfl, rfl⟩
  case edit => exact fun _ _ => ⟨rfl, rfl⟩

/-! ## One event -/

theorem entries_handle (shared : Bindings) (hlimit : ∀ m ∈ ed.history.limit?, 0 ≤ m)
    (hentries : History.cutTo ed.history.limit? ed.history.entries = ed.history.entries)
    (e : Event) :
    (ed.handle shared e).editor.history.entries =
      History.cutTo ed.history.limit? ((ed.enteredBy shared e).reverse ++ ed.history.entries) := by
  rw [enteredBy]
  split_ifs with h
  · rw [(handle_of_submits h).1, History.push_of_ne_nil h.2, History.trim_eq_cutTo hlimit]
    rfl
  · rw [(handle_of_not_submits h).1]
    exact hentries.symm

theorem submissions_handle (shared : Bindings) (ed : Editor) (e : Event) :
    (ed.handle shared e).signals.filterMap Signal.submission? =
      (ed.enteredBy shared e).map fun text => (text, Command.parse text) := by
  rw [enteredBy]
  split_ifs with h
  · rw [(handle_of_submits h).2]
    rfl
  · rw [(handle_of_not_submits h).2]
    rfl

/-! ## Runs -/

theorem entries_run (shared : Bindings) (ed : Editor) (hlimit : ∀ m ∈ ed.history.limit?, 0 ≤ m)
    (hentries : History.cutTo ed.history.limit? ed.history.entries = ed.history.entries)
    (es : List Event) :
    (ed.run shared es).1.history.entries =
      History.cutTo ed.history.limit? ((ed.entered shared es).reverse ++ ed.history.entries) := by
  induction es generalizing ed with
  | nil => exact hentries.symm
  | cons e es ih =>
    have hstep := entries_handle shared hlimit hentries e
    have hsame := limit?_handle shared ed e
    have hcut : History.cutTo ed.history.limit? (ed.handle shared e).editor.history.entries =
        (ed.handle shared e).editor.history.entries := by
      rw [hstep]
      exact History.cutTo_append_cutTo _ [] _
    rw [← hsame] at hlimit hcut
    rw [run_cons_fst, ih _ hlimit hcut, hsame, hstep, History.cutTo_append_cutTo, entered,
      List.reverse_append, List.append_assoc]

theorem submissions_run (shared : Bindings) (ed : Editor) (es : List Event) :
    (ed.run shared es).2.filterMap Signal.submission? =
      (ed.entered shared es).map fun text => (text, Command.parse text) := by
  induction es generalizing ed with
  | nil => rfl
  | cons e es ih =>
    rw [run_cons_snd, List.filterMap_append, submissions_handle, ih, entered, List.map_append]

/-- **The history of a new editor is what was entered**, newest first, up to its limit, and the
outside was told of every line that was entered, in order, with the command that it holds.  After
each of them the editor is at a new line; no other event changes the entries. -/
theorem entries_run_fresh (shared : Bindings) (bindings? : Option Bindings)
    (wordChars : List Char) {limit? : Option Int} (hlimit : ∀ m ∈ limit?, 0 ≤ m)
    (es : List Event) :
    let start := fresh wordChars (.empty limit?) bindings?
    let ed := (start.run shared es).1
    ed.history.entries = History.cutTo limit? (start.entered shared es).reverse ∧
      (start.run shared es).2.filterMap Signal.submission? =
        (start.entered shared es).map (fun text => (text, Command.parse text)) ∧
      ∀ e, let next := (ed.handle shared e).editor
        (ed.Submits shared e →
          next.line = .empty ∧ next.history.position = 0 ∧ next.draft? = none) ∧
        (¬ed.Submits shared e → next.history.entries = ed.history.entries) := by
  intro start ed
  refine ⟨?_, submissions_run shared start es, ?_⟩
  · have hrun := entries_run shared start hlimit (History.cutTo_nil limit?) es
    rwa [show start.history.entries = [] from rfl, List.append_nil] at hrun
  · intro e next
    refine ⟨?_, fun h => (handle_of_not_submits h).1⟩
    intro h
    have hnext : next = { ed with
        line := .empty, history := ed.history.push ed.line.text, draft? := none } :=
      (handle_of_submits h).1
    rw [hnext]
    exact ⟨rfl, congrArg History.position (History.push_of_ne_nil h.2), rfl⟩

/-- Two lines are entered, and nothing; then the older one is recalled, changed and entered.  The
two newest of the three are kept. -/
theorem entries_run_fresh_recalled :
    let limit? : Option Int := some 2
    let enter : Event := .press (.char 'm') .onlyCtrl
    let up : Event := .press .up .empty
    let es := [.paste "ls".toList, enter, .paste "cd".toList, enter, enter, up, up,
      .paste " -a".toList, enter]
    let start := fresh defaultWordChars (.empty limit?) none
    let ed := (start.run .default es).1
    (∀ m ∈ limit?, 0 ≤ m) ∧
      start.entered .default es = ["ls".toList, "cd".toList, "ls -a".toList] ∧
      ed.history.entries = ["ls -a".toList, "cd".toList] ∧
      ed.history.entries = History.cutTo limit? (start.entered .default es).reverse ∧
      (start.run .default es).2.filterMap Signal.submission? =
        (start.entered .default es).map (fun text => (text, Command.parse text)) ∧
      ∀ e, let next := (ed.handle .default e).editor
        (ed.Submits .default e →
          next.line = .empty ∧ next.history.position = 0 ∧ next.draft? = none) ∧
        (¬ed.Submits .default e → next.history.entries = ed.history.entries) := by
  have hlimit : ∀ m ∈ (some 2 : Option Int), 0 ≤ m := by
    rintro m ⟨⟩
    exact Int.zero_le_ofNat 2
  exact ⟨hlimit, by decide +kernel, by decide +kernel,
    entries_run_fresh .default none defaultWordChars hlimit _⟩

end Editor

end ShellLine
