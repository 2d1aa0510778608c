import ShellLine.Editor.Terminal
import ShellLine.Proofs.Editor.Browsing
import ShellLine.Proofs.Key.Presses

/-!
# Proofs/Editor/Printable — keys bring only printable characters into an editor

Characters come into an editor by typing and in no other way: what is put aside, entered or recalled
was in the line before (`HoldsOnly.handle`).  A key types something only if it is a printable
character without modifiers (`typed?_of_decode`).  So as long as nothing is pasted, whatever bytes
come, all text in the editor is printable (`holdsOnly_handleAll_fresh`).
-/

namespace ShellLine

namespace Editor

variable {shared : Bindings} {ed : Editor} {p : Char → Bool}

/-! ## Characters of an editor -/

/-- All characters of an editor are such that `p` holds: those of the line, of what lies aside, and
of the entries. -/
structure HoldsOnly (p : Char → Bool) (ed : Editor) : Prop where
  line : ∀ c ∈ ed.line.text, p c = true
  draft : ∀ l ∈ ed.draft?, ∀ c ∈ l.text, p c = true
  entries : ∀ s ∈ ed.history.entries, ∀ c ∈ s, p c = true

/-- An editor with nothing typed and nothing aside holds its entries. -/
theorem HoldsOnly.of_empty (hline : ed.line = .empty) (hdraft : ed.draft? = none)
    (hentries : ∀ s ∈ ed.history.entries, ∀ c ∈ s, p c = true) : ed.HoldsOnly p where
  line := by simp [hline, Line.empty]
  draft := by simp [hdraft]
  entries := hentries

theorem holdsOnly_fresh (p : Char → Bool) (wordChars : List Char) (limit? : Option Int)
    (bindings? : Option Bindings) : (fresh wordChars (.empty limit?) bindings?).HoldsOnly p :=
  .of_empty rfl rfl fun _ hs => absurd hs List.not_mem_nil

namespace HoldsOnly

/-- What lies aside, or is taken when nothing does. -/
theorem getD_draft (h : ed.HoldsOnly p) {l : Line} (hl : ∀ c ∈ l.text, p c = true) :
    ∀ c ∈ (ed.draft?.getD l).text, p c = true := by
  cases hdraft : ed.draft? with
  | none => exact hl
  | some l => exact h.draft l hdraft

theorem recallOlder (h : ed.HoldsOnly p) : ed.recallOlder.HoldsOnly p := by
  cases hcurrent : ed.history.older.current? with
  | none =>
    rw [recallOlder_of_none hcurrent]
    exact ⟨h.line, h.draft, h.entries⟩
  | some entry =>
    have hentry : entry ∈ ed.history.older.entries := History.mem_entries_of_current? hcurrent
    rw [recallOlder_of_some hcurrent]
    refine ⟨h.entries entry hentry, ?_, h.entries⟩
    rintro l ⟨⟩
    exact h.getD_draft h.line

theorem recallNewer (h : ed.HoldsOnly p) : ed.recallNewer.HoldsOnly p := by
  rcases eq_or_ne ed.history.position 0 with hzero | hne
  · rw [recallNewer_of_position hzero]
    exact h
  · cases hcurrent : ed.history.newer.current? with
    | none =>
      rw [recallNewer_of_none hne hcurrent]
      exact ⟨h.getD_draft fun _ hc => absurd hc List.not_mem_nil, by simp, h.entries⟩
    | some entry =>
      have hentry : entry ∈ ed.history.newer.entries := History.mem_entries_of_current? hcurrent
      rw [recallNewer_of_some hne hcurrent]
      exact ⟨h.entries entry hentry, h.draft, h.entries⟩

theorem submit (h : ed.HoldsOnly p) : ed.submit.1.HoldsOnly p := by
  rcases eq_or_ne ed.line.text [] with hnil | hne
  · rw [submit_of_nil hnil]
    exact h
  · rw [submit_of_ne_nil hne]
    refine .of_empty rfl rfl fun s hs => ?_
    obtain rfl | hs := History.mem_entries_push hs
    · exact h.line
    · exact h.entries s hs

theorem clearLine (h : ed.HoldsOnly p) : ed.clearLine.HoldsOnly p :=
  .of_empty rfl rfl h.entries

theorem edit (h : ed.HoldsOnly p) (op : Line.Op) (hop : ∀ c ∈ op.added, p c = true) :
    (ed.mapLine op.apply).HoldsOnly p := by
  refine ⟨fun c hc => ?_, h.draft, h.entries⟩
  rcases List.mem_append.1 (ed.line.text_apply_subset op hc) with hc | hc
  · exact hop c hc
  · exact h.line c hc

/-- No action brings in a character. -/
theorem perform (h : ed.HoldsOnly p) (a : Action) : (ed.perform a).1.HoldsOnly p := by
  have hedit (op : Line.Op) (hop : op.added = []) : (ed.mapLine op.apply).HoldsOnly p :=
    h.edit op (by simp [hop])
  cases a with
  | historyUp => exact h.recallOlder
  | historyDown => exact h.recallNewer
  | cursorLeft => exact hedit (.back 1) rfl
  | cursorRight => exact hedit (.forward 1) rfl
  | cursorWordLeft => exact hedit (.backWord ed.isBoundary) rfl
  | cursorWordRight => exact hedit (.forwardWord ed.isBoundary) rfl
  | cursorLineStart => exact hedit .toStart rfl
  | cursorLineEnd => exact hedit .toEnd rfl
  | deleteCharBackward => exact hedit .remove rfl
  | deleteCharForward => exact hedit .removeNext rfl
  | deleteWordBackward => exact hedit (.removeWord ed.isBoundary) rfl
  | deleteToLineEnd => exact hedit .removeEnd rfl
  | clearLine => exact h.clearLine
  | submit => exact h.submit
  | exit => exact h

theorem insertText {s : List Char} (h : ed.HoldsOnly p) (hs : ∀ c ∈ s, p c = true) :
    (ed.mapLine (·.insertText s)).HoldsOnly p := by
  induction s generalizing ed with
  | nil => exact h
  | cons c s ih =>
    rw [List.forall_mem_cons] at hs
    exact ih (h.edit (.insert c) (by simpa [Line.Op.added] using hs.1)) hs.2

/-- **An event brings in no characters but those that it types.** -/
theorem handle (h : ed.HoldsOnly p) {e : Event} (he : ∀ s ∈ typed? e, ∀ c ∈ s, p c = true) :
    (ed.handle shared e).editor.HoldsOnly p := by
  rw [Editor.handle]
  split
  next a _ => exact h.perform a
  next =>
    split
    next s hs => exact h.insertText (he s hs)
    next => exact h

theorem run (h : ed.HoldsOnly p) {es : List Event}
    (hes : ∀ e ∈ es, ∀ s ∈ typed? e, ∀ c ∈ s, p c = true) : (ed.run shared es).1.HoldsOnly p := by
  induction es generalizing ed with
  | nil => exact h
  | cons e es ih =>
    rw [List.forall_mem_cons] at hes
    exact ih (h.handle hes.1) hes.2

end HoldsOnly

/-! ## Keys -/

/-- **A key that types something types one printable character.** -/
theorem typed?_of_decode {data : List UInt8} {key : Key} {mods : Modifiers} {s : List Char}
    (h : decode data = some (.press key mods)) (hs : typed? (.press key mods) = some s) :
    ∃ c, s = [c] ∧ isPrintable c = true := by
  cases key with
  | space =>
    simp only [typed?] at hs
    split_ifs at hs
    cases hs
    exact ⟨' ', rfl, (isPrintable_iff_of_lt (by decide)).2 (by decide)⟩
  | char c =>
    simp only [typed?] at hs
    split_ifs at hs with hmods
    cases hs
    obtain rfl : mods = .empty := by simpa [Modifiers.isEmpty] using hmods
    exact ⟨c, rfl, (isPress_of_decode h).isReported.isPrintable⟩
  | _ => cases hs

/-- What the handling of some bytes asks for is there. -/
structure CanHandle (ed : Editor) (data : List UInt8) : Prop where
  /-- The parts of the event fit together. -/
  event : ∀ e ∈ decode data,
    Event.make? e.kind (e.char?.map ([·])) e.text? e.mods.bits = .ok e
  /-- What a key types is one character. -/
  typing : ∀ {key : Key} {mods : Modifiers}, decode data = some (.press key mods) →
    ∀ s ∈ typed? (.press key mods), ed.line.insertOne? s = .ok (ed.line.insertText s)
  /-- Where the position is, and one step from it, there is an entry. -/
  entry : ∀ h ∈ [ed.history, ed.history.older, ed.history.newer], ¬h.IsDangling

theorem IsOrderly.canHandle (ho : ed.IsOrderly) (data : List UInt8) : ed.CanHandle data where
  event e he := make?_of_decode he
  typing h s hs := by
    obtain ⟨c, rfl, -⟩ := typed?_of_decode h hs
    rfl
  entry h hh := by
    simp only [List.mem_cons, List.not_mem_nil, or_false] at hh
    rcases hh with rfl | rfl | rfl
    · exact History.not_isDangling_of_le ho.position_le
    · exact History.not_isDangling_of_le ed.history.position_older_le
    · exact History.not_isDangling_of_le (History.position_newer_le ho.position_le)

/-- Keys do what their events do; bytes that are no key do nothing. -/
theorem handleAll_eq_run (shared : Bindings) (ed : Editor) (chunks : List (List UInt8)) :
    ((ed.handleAll shared chunks).editor, (ed.handleAll shared chunks).signals) =
      ed.run shared (chunks.filterMap decode) := by
  induction chunks generalizing ed with
  | nil => rfl
  | cons data chunks ih =>
    cases hdata : decode data with
    | none =>
      have hsame : ed.handleBytes shared data = ⟨ed, none, []⟩ := by rw [handleBytes, hdata]
      rw [List.filterMap_cons_none hdata, ← ih, handleAll, hsame]
      rfl
    | some e =>
      have hevent : ed.handleBytes shared data = ed.handle shared e := by rw [handleBytes, hdata]
      rw [List.filterMap_cons_some hdata, run, ← ih, handleAll, hevent]

/-- **Without a paste, only printable text comes into an editor**, whatever bytes it is given and
whatever they are bound to; and no bytes ask for anything that is not there. -/
theorem holdsOnly_handleAll_fresh (shared : Bindings) (bindings? : Option Bindings)
    (wordChars : List Char) (limit? : Option Int) {chunks : List (List UInt8)}
    (hkeys : ∀ x ∈ chunks, ∀ text, decode x ≠ some (.paste text)) :
    let ed := fresh wordChars (.empty limit?) bindings?
    (ed.handleAll shared chunks).editor.HoldsOnly isPrintable ∧
      ∀ done x, done ++ [x] <+: chunks → (ed.handleAll shared done).editor.CanHandle x := by
  intro ed
  have hrun (chunks : List (List UInt8)) : (ed.handleAll shared chunks).editor =
      (ed.run shared (chunks.filterMap decode)).1 :=
    congrArg Prod.fst (handleAll_eq_run shared ed chunks)
  constructor
  · rw [hrun]
    refine (holdsOnly_fresh isPrintable wordChars limit? bindings?).run fun e he s hs => ?_
    obtain ⟨x, hx, he⟩ := List.mem_filterMap.1 he
    cases e with
    | paste text => exact absurd he (hkeys x hx text)
    | press key mods =>
      obtain ⟨c, rfl, hc⟩ := typed?_of_decode he hs
      exact List.forall_mem_singleton.2 hc
  · intro done x _
    rw [hrun]
    have hfresh : ed.IsOrderly := ⟨Nat.le_refl 0, fun _ => rfl⟩
    exact IsOrderly.canHandle
      (run_induction (motive := IsOrderly) (fun _ e ho => ho.handle e) hfresh _) x

/-- A byte of no character, an escape, alt with `A` and a control byte that is bound to nothing come
between the characters of a line.  It is entered and recalled while another is typed. -/
theorem holdsOnly_handleAll_fresh_recalled :
    let chunks : List (List UInt8) :=
      [[0x65], [0xff], [0x1b], [0xc3, 0xa9], [0x1b, 0x41], [0x00], [0x0d], [0x41],
        [0x1b, 0x5b, 0x41]]
    let start := fresh defaultWordChars (.empty (some 3)) none
    let ed := (start.handleAll .default chunks).editor
    (∀ x ∈ chunks, ∀ text, decode x ≠ some (.paste text)) ∧ ed.line = ⟨"eé".toList, 2⟩ ∧
      ed.draft? = some ⟨"A".toList, 1⟩ ∧ ed.history.entries = ["eé".toList] ∧
      ed.HoldsOnly isPrintable ∧
      ∀ done x, done ++ [x] <+: chunks → (start.handleAll .default done).editor.CanHandle x := by
  intro chunks start ed
  have hnone : ∀ x ∈ chunks, (decode x).bind Event.text? = none := by decide +kernel
  have hkeys : ∀ x ∈ chunks, ∀ text, decode x ≠ some (.paste text) := by
    intro x hx text hpaste
    have htext := hnone x hx
    rw [hpaste] at htext
    cases htext
  exact ⟨hkeys, by decide +kernel, by decide +kernel, by decide +kernel,
    holdsOnly_handleAll_fresh .default none defaultWordChars (some 3) hkeys⟩

end Editor

end ShellLine
