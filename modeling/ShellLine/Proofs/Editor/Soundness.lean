import ShellLine.Proofs.Editor.History
import ShellLine.Proofs.Editor.Runs

/-!
# Proofs/Editor/Soundness — the line, the draft and the history fit together

Four things change with every event: the line, the draft, the entries and the position among them.
`IsSound` says how they fit together: a draft is put aside just while an entry is recalled, and no
cursor and no position leaves its list.  Each event keeps that up (`IsSound.handle`), and so each
run of an editor does (`isSound_run_fresh`).
-/

namespace ShellLine

namespace Editor

/-- What an editor keeps up. -/
structure IsSound (ed : Editor) : Prop where
  line : ed.line.IsInside
  draft : ∀ l ∈ ed.draft?, l.IsInside
  history : ed.history.IsSound
  draft_iff : ed.draft?.isSome ↔ 0 < ed.history.position

variable {shared : Bindings} {ed : Editor}

/-- An editor that recalls nothing has no draft. -/
theorem IsSound.of_atLine (hline : ed.line.IsInside) (hdraft : ed.draft? = none)
    (hposition : ed.history.position = 0) (hhistory : ed.history.IsSound) : ed.IsSound where
  line := hline
  draft l hl := by
    rw [hdraft] at hl
    contradiction
  history := hhistory
  draft_iff := by
    rw [hdraft, hposition]
    exact iff_of_false Bool.false_ne_true (Nat.lt_irrefl 0)

theorem isSound_fresh (wordChars : List Char) (bindings? : Option Bindings) {limit? : Option Int}
    (hlimit : ∀ m ∈ limit?, 0 ≤ m) :
    (fresh wordChars (.empty limit?) bindings?).IsSound :=
  .of_atLine Line.isInside_empty rfl rfl (History.isSound_empty hlimit)

namespace IsSound

theorem recallOlder (hs : ed.IsSound) : ed.recallOlder.IsSound := by
  cases hcurrent : ed.history.older.current? with
  | none =>
    -- no entry is found only when there is none, and then none was recalled before
    have hzero : ed.history.older.position = 0 :=
      hs.history.older.current?_eq_none_iff.1 hcurrent
    have hmin : min (ed.history.position + 1) ed.history.entries.length = 0 := hzero
    have hle := hs.history.position_le
    rw [recallOlder_of_none hcurrent]
    refine ⟨hs.line, hs.draft, hs.history.older, ?_⟩
    rw [hs.draft_iff, hzero]
    omega
  | some entry =>
    have hpos : 0 < ed.history.older.position := by
      rw [← hs.history.older.current?_ne_none_iff, hcurrent]
      exact Option.some_ne_none entry
    rw [recallOlder_of_some hcurrent]
    refine ⟨Line.isInside_toEnd _, ?_, hs.history.older, iff_of_true rfl hpos⟩
    rintro l ⟨⟩
    cases hdraft : ed.draft? with
    | none => exact hs.line
    | some l => exact hs.draft l hdraft

theorem recallNewer (hs : ed.IsSound) : ed.recallNewer.IsSound := by
  rcases eq_or_ne ed.history.position 0 with hzero | hne
  · rw [recallNewer_of_position hzero]
    exact hs
  · cases hcurrent : ed.history.newer.current? with
    | none =>
      rw [recallNewer_of_none hne hcurrent]
      exact of_atLine (Line.isInside_toEnd _) rfl
        (hs.history.newer.current?_eq_none_iff.1 hcurrent) hs.history.newer
    | some entry =>
      have hpos : 0 < ed.history.newer.position := by
        rw [← hs.history.newer.current?_ne_none_iff, hcurrent]
        exact Option.some_ne_none entry
      rw [recallNewer_of_some hne hcurrent]
      exact ⟨Line.isInside_toEnd _, hs.draft, hs.history.newer,
        iff_of_true (hs.draft_iff.2 (Nat.pos_of_ne_zero hne)) hpos⟩

theorem submit (hs : ed.IsSound) : ed.submit.1.IsSound := by
  rcases eq_or_ne ed.line.text [] with hnil | hne
  · rw [submit_of_nil hnil]
    exact hs
  · rw [submit_of_ne_nil hne]
    refine of_atLine Line.isInside_empty rfl ?_ (hs.history.push ed.line.text)
    exact congrArg History.position (History.push_of_ne_nil hne)

theorem clearLine (hs : ed.IsSound) : ed.clearLine.IsSound :=
  of_atLine Line.isInside_empty rfl rfl hs.history.reset

theorem edit (hs : ed.IsSound) (ops : List Line.Op) :
    (ed.mapLine (·.applyAll ops)).IsSound :=
  { hs with line := hs.line.applyAll ops }

/-- **Every event keeps an editor sound.** -/
theorem handle (hs : ed.IsSound) (e : Event) : (ed.handle shared e).editor.IsSound := by
  refine handle_cases (motive := fun ed _ => ed.IsSound) shared ed e ?older ?newer ?submit ?clear
    ?exit ?edit
  case older =>
    intro _
    exact hs.recallOlder
  case newer =>
    intro _
    exact hs.recallNewer
  case submit =>
    intro _
    exact hs.submit
  case clear =>
    intro _
    exact hs.clearLine
  case exit =>
    intro _
    exact hs
  case edit =>
    intro ops _
    exact hs.edit ops

theorem run (hs : ed.IsSound) (es : List Event) : (ed.run shared es).1.IsSound :=
  run_induction (fun _ e hs => hs.handle e) hs es

end IsSound

/-- **Whatever happens to a new editor, it stays sound**: the cursors are inside their lines, there
is a draft just while an entry is recalled, no entry is empty, and the limit holds.  No lookup that
an event may need is out of range, neither where the position is nor one step from it. -/
theorem isSound_run_fresh (shared : Bindings) (bindings? : Option Bindings)
    (wordChars : List Char) {limit? : Option Int} (hlimit : ∀ m ∈ limit?, 0 ≤ m)
    (es : List Event) :
    let ed := ((fresh wordChars (.empty limit?) bindings?).run shared es).1
    ed.IsSound ∧ (∀ m ∈ limit?, (ed.history.entries.length : Int) ≤ m) ∧
      ∀ h ∈ [ed.history, ed.history.older, ed.history.newer], ¬h.IsDangling := by
  intro ed
  have hs : ed.IsSound := (isSound_fresh wordChars bindings? hlimit).run es
  have hlimit? : ed.history.limit? = limit? := limit?_run shared _ es
  refine ⟨hs, ?_, ?_⟩
  · rw [← hlimit?]
    exact hs.history.length_le
  · intro h hh
    simp only [List.mem_cons, List.not_mem_nil, or_false] at hh
    rcases hh with rfl | rfl | rfl
    · exact hs.history.not_isDangling
    · exact hs.history.older.not_isDangling
    · exact hs.history.newer.not_isDangling

/-- Two lines are entered where one may be kept; the second is recalled while a third is typed. -/
theorem isSound_run_fresh_recalled :
    let limit? : Option Int := some 1
    let enter : Event := .press (.char 'm') .onlyCtrl
    let ed := ((fresh defaultWordChars (.empty limit?) none).run .default
      [.paste "ls".toList, enter, .paste "cd".toList, enter, .paste "echo".toList,
        .press .up .empty, .press .left .empty]).1
    (∀ m ∈ limit?, 0 ≤ m) ∧ ed.line = ⟨"cd".toList, 1⟩ ∧ ed.draft? = some ⟨"echo".toList, 4⟩ ∧
      ed.history = ⟨["cd".toList], 1, limit?⟩ ∧
      ed.IsSound ∧ (∀ m ∈ limit?, (ed.history.entries.length : Int) ≤ m) ∧
      ∀ h ∈ [ed.history, ed.history.older, ed.history.newer], ¬h.IsDangling := by
  have hlimit : ∀ m ∈ (some 1 : Option Int), 0 ≤ m := by
    rintro m ⟨⟩
    exact Int.zero_le_ofNat 1
  exact ⟨hlimit, by decide +kernel, by decide +kernel, by decide +kernel,
    isSound_run_fresh .default none defaultWordChars hlimit _⟩

end Editor

end ShellLine
