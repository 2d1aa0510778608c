import ShellLine.Editor.Terminal
import ShellLine.Proofs.Editor.Runs
import ShellLine.Proofs.Key.Decode
import ShellLine.Proofs.Line.Typing
import ShellLine.Proofs.Stream.Boundaries

/-!
# Proofs/Editor/Terminal — pasting and typing through a terminal

An editor at the end of a stream does what it does with the keys that the stream passes on, so a run
of a terminal is a run of its stream, all of whose keys are then handed over (`run_eq_deliver`).
Where reads end makes no difference then:

* a paste only types its text, whatever bytes it holds (`run_pasteSequence`);
* printable characters are typed one by one (`run_encode`).
-/

namespace ShellLine

/-! ## Runs -/

namespace Terminal

/-- Take a step: a read or a pause, or something that the outside does to the stream. -/
def step (shared : Bindings) (t : Terminal) : Input.Step → TerminalStep
  | .read data => t.feed shared data
  | .wait ticks => t.wait shared ticks
  | s => t.deliver shared (t.input.step s)

/-- Take some steps, one after the other. -/
def run (shared : Bindings) (t : Terminal) : List Input.Step → TerminalStep
  | [] => ⟨t, [], []⟩
  | s :: steps =>
    let o := t.step shared s
    let r := run shared o.terminal steps
    ⟨r.terminal, o.replies ++ r.replies, o.signals ++ r.signals⟩

theorem step_eq_deliver (shared : Bindings) (t : Terminal) (s : Input.Step) :
    t.step shared s = t.deliver shared (t.input.step s) := by
  cases s <;> rfl

/-- **A run of a terminal hands over what a run of its stream passes on.** -/
theorem run_eq_deliver (shared : Bindings) (t : Terminal) (steps : List Input.Step) :
    t.run shared steps = t.deliver shared (t.input.run steps) := by
  induction steps generalizing t with
  | nil => rfl
  | cons s steps ih =>
    simp only [run, step_eq_deliver, ih, deliver, Input.run, Editor.handleAll_append]

end Terminal

/-! ## Characters are keys -/

/-- The bytes of a character other than the escape are one key. -/
theorem isKey_encodeChar {c : Char} (h : escByte ∉ Utf8.encodeChar c) :
    IsKey (Utf8.encodeChar c) := by
  obtain ⟨e, s, hbytes, hlength, -⟩ := Utf8.read_encodeChar c
  rw [hbytes, List.mem_cons, not_or] at h
  rw [hbytes]
  exact (isKey_iff_length (Ne.symm h.1)).2 hlength

/-- Printable characters do not make up the mark of a paste. -/
theorem isKeyRun_map_encodeChar {s : List Char} (hs : ∀ c ∈ s, isPrintable c = true) :
    IsKeyRun (s.map Utf8.encodeChar) := by
  constructor
  · intro x hx
    obtain ⟨c, hc, rfl⟩ := List.mem_map.1 hx
    exact isKey_encodeChar (escByte_not_mem_encodeChar (hs c hc))
  · intro hstart
    have hesc : escByte ∈ (s.map Utf8.encodeChar).flatten := hstart.subset (by decide)
    obtain ⟨c, hc, hmem⟩ := List.mem_flatMap.1 (List.flatMap_def ▸ hesc)
    exact escByte_not_mem_encodeChar (hs c hc) hmem

/-! ## Keys that are bound to nothing -/

theorem Bindings.actionFor?_eq_none_iff {b : Bindings} {e : Event} :
    b.actionFor? e = none ↔ e.keyId ∉ b.owners.map Prod.fst := by
  rw [actionFor?, List.lookup_eq_none_iff, List.mem_map]
  simp only [bne_iff_ne, ne_eq, not_exists, not_and, @eq_comm _ e.keyId]

/-- When nothing else is set, no character is bound to an action. -/
theorem Bindings.keyId_ofChar_not_mem_default (c : Char) :
    (Event.ofChar c).keyId ∉ Bindings.default.owners.map Prod.fst := by
  have hlong : ∀ k ∈ Bindings.default.owners.map Prod.fst, 1 < k.length ∧ k ≠ "space".toList := by
    decide +kernel
  intro hmem
  obtain ⟨hlength, hspace⟩ := hlong _ hmem
  rw [Event.ofChar] at hlength hspace
  split at hspace
  next => exact hspace rfl
  next h =>
    rw [if_neg h] at hlength
    exact absurd hlength (Nat.lt_irrefl 1)

namespace Editor

variable {shared : Bindings} {ed : Editor}

/-- An event that is bound to nothing and types a text does just that. -/
theorem handle_of_typed? {e : Event} {s : List Char}
    (hfree : e.keyId ∉ (ed.bindings shared).owners.map Prod.fst) (hs : typed? e = some s) :
    ed.handle shared e = ⟨ed.mapLine (·.insertText s), some .inserted, []⟩ := by
  simp only [handle, Bindings.actionFor?_eq_none_iff.2 hfree, hs]

theorem typed?_ofChar (c : Char) : typed? (.ofChar c) = some [c] := by
  rw [Event.ofChar]
  split
  next h => rw [h]; rfl
  next => rfl

theorem handleBytes_encodeChar {c : Char} (hc : isPrintable c = true)
    (hfree : (Event.ofChar c).keyId ∉ (ed.bindings shared).owners.map Prod.fst) :
    ed.handleBytes shared (Utf8.encodeChar c) =
      ⟨ed.mapLine (·.insertText [c]), some .inserted, []⟩ := by
  rw [handleBytes, decode_encodeChar hc]
  exact handle_of_typed? hfree (typed?_ofChar c)

theorem handleBytes_pasteSequence (body : List UInt8)
    (hfree : Event.pasteKind ∉ (ed.bindings shared).owners.map Prod.fst) :
    ed.handleBytes shared (pasteSequence body) =
      ⟨ed.mapLine (·.insertText (Utf8.decodeLossy body)), some .inserted, []⟩ := by
  rw [handleBytes, decode_pasteSequence]
  exact handle_of_typed? hfree rfl

/-- The keys of a text, none of them bound, type it. -/
theorem handleAll_map_encodeChar {s : List Char} (hs : ∀ c ∈ s, isPrintable c = true)
    (hfree : ∀ c ∈ s, (Event.ofChar c).keyId ∉ (ed.bindings shared).owners.map Prod.fst) :
    ed.handleAll shared (s.map Utf8.encodeChar) =
      ⟨ed.mapLine (·.insertText s), s.map fun _ => some .inserted, []⟩ := by
  induction s generalizing ed with
  | nil => rfl
  | cons c s ih =>
    rw [List.forall_mem_cons] at hs hfree
    have hrest : (ed.mapLine (·.insertText [c])).handleAll shared (s.map Utf8.encodeChar) = _ :=
      ih hs.2 hfree.2
    rw [List.map_cons, handleAll, handleBytes_encodeChar hs.1 hfree.1]
    simp only [hrest]
    rfl

end Editor

/-! ## Pasting and typing -/

namespace Terminal

/-- **Pasted bytes are only typed.**  Between the marks of a paste any bytes may stand, and reads may
end anywhere: the text of the bytes is typed into the line, and nothing else about the editor
changes.  No line is entered and nobody asks to leave. -/
theorem run_pasteSequence (shared : Bindings) {t : Terminal} (hclock : t.input.clocked = true)
    (hidle : t.input.pending = .held [])
    (hfree : Event.pasteKind ∉ (t.editor.bindings shared).owners.map Prod.fst) {body : List UInt8}
    (hend : ¬ pasteEnd <:+: body) {steps : List Input.Step}
    (hs : t.input.isUndisturbed steps = true) (hcut : Input.received steps = pasteSequence body) :
    let r := t.run shared steps
    r.terminal.editor =
        { t.editor with line := t.editor.line.insertText (Utf8.decodeLossy body) } ∧
      r.replies = [some .inserted] ∧ r.signals = [] ∧ r.terminal.input.pending = .held [] := by
  intro r
  have hpaste : IsSegmented [pasteSequence body] := .paste .nil hend (.keys .nil)
  obtain ⟨hout, hpending⟩ := Input.run_of_isSegmented hpaste hclock hidle hs
    (hcut.trans (List.append_nil _).symm)
  have hkeys : t.editor.handleAll shared [pasteSequence body] =
      ⟨t.editor.mapLine (·.insertText (Utf8.decodeLossy body)), [some .inserted], []⟩ := by
    rw [Editor.handleAll, Editor.handleBytes_pasteSequence body hfree]
    rfl
  have hr : r = t.deliver shared (t.input.run steps) := run_eq_deliver shared t steps
  rw [hr, deliver, hout, hkeys]
  exact ⟨rfl, rfl, rfl, hpending⟩

/-- A paste of a return, an interrupt, an arrow key, another first mark and a byte that begins no
character comes while an entry is recalled.  The reads end inside both marks. -/
theorem run_pasteSequence_recalled :
    let enter : Event := .press (.char 'm') .onlyCtrl
    let ed := ((Editor.fresh defaultWordChars (.empty none) none).run .default
      [.paste "ls".toList, enter, .paste "echo ".toList, .press .up .empty, .press .left .empty]).1
    let body : List UInt8 := [0x0d, 0x03, 0x1b, 0x5b, 0x41] ++ pasteStart ++ [0xff]
    let steps : List Input.Step :=
      [.read [0x1b, 0x5b, 0x32], .wait 9, .read [0x30, 0x30, 0x7e, 0x0d, 0x03, 0x1b], .read [],
        .read ([0x5b, 0x41] ++ pasteStart ++ [0xff, 0x1b, 0x5b, 0x32]), .read [0x30, 0x31, 0x7e]]
    let r := (⟨.fresh true 10, ed⟩ : Terminal).run .default steps
    Input.received steps = pasteSequence body ∧ ed.line = ⟨"ls".toList, 1⟩ ∧
      ed.history = ⟨["ls".toList], 1, none⟩ ∧ ed.draft? = some ⟨"echo ".toList, 5⟩ ∧
      r.terminal.editor =
        { ed with line := ⟨"l\r\x03\x1b[A\x1b[200~\ufffds".toList, 13⟩ } ∧ r.signals = [] := by
  intro enter ed body steps r
  have hs : (Input.fresh true 10).isUndisturbed steps = true := by decide +kernel
  have hcut : Input.received steps = pasteSequence body := by decide
  have hfree : Event.pasteKind ∉ (ed.bindings .default).owners.map Prod.fst := by decide +kernel
  have hline : ed.line = ⟨"ls".toList, 1⟩ := by decide +kernel
  have hhistory : ed.history = ⟨["ls".toList], 1, none⟩ := by decide +kernel
  have hdraft : ed.draft? = some ⟨"echo ".toList, 5⟩ := by decide +kernel
  clear_value ed
  obtain ⟨hed, -, hsignals, -⟩ := @run_pasteSequence .default ⟨.fresh true 10, ed⟩ rfl rfl hfree
    body (by decide) steps hs hcut
  have htyped : ed.line.insertText (Utf8.decodeLossy body) =
      ⟨"l\r\x03\x1b[A\x1b[200~\ufffds".toList, 13⟩ := by
    rw [hline]
    decide +kernel
  refine ⟨hcut, hline, hhistory, hdraft, ?_, hsignals⟩
  rw [← htyped]
  exact hed

/-- **Typing a text through a terminal.**  Its bytes may come in any reads, cut inside characters:
each character comes out as one key and is typed, and the line is left with the text, its runs of
blanks cut to their first, and the cursor at the end. -/
theorem run_encode {shared : Bindings} {bindings? : Option Bindings}
    (hdefault : bindings?.getD shared = .default) (wordChars : List Char) (limit? : Option Int)
    (timeout : Int) {s : List Char} (hs : ∀ c ∈ s, isPrintable c = true) {steps : List Input.Step}
    (hsteps : (Input.fresh true timeout).isUndisturbed steps = true)
    (hcut : Input.received steps = Utf8.encode s) :
    let ed := Editor.fresh wordChars (.empty limit?) bindings?
    let r := (⟨.fresh true timeout, ed⟩ : Terminal).run shared steps
    ((Input.fresh true timeout).run steps).1 = s.map Utf8.encodeChar ∧
      r.terminal.editor = { ed with line := ⟨squeezed s, (squeezed s).length⟩ } ∧
      r.replies = s.map (fun _ => some .inserted) ∧ r.signals = [] := by
  intro ed r
  obtain ⟨hout, -⟩ := Input.run_of_isSegmented (.keys (isKeyRun_map_encodeChar hs)) rfl rfl hsteps
    (hcut.trans List.flatMap_def)
  have hfree : ∀ c ∈ s, (Event.ofChar c).keyId ∉ (ed.bindings shared).owners.map Prod.fst := by
    intro c _
    rw [show ed.bindings shared = .default from hdefault]
    exact Bindings.keyId_ofChar_not_mem_default c
  have hline : ed.line.insertText s = ⟨squeezed s, (squeezed s).length⟩ := by
    rw [show ed.line = .empty from rfl, Line.insertText_empty, Line.between, List.append_nil]
  have hr : r = _ := run_eq_deliver shared ⟨.fresh true timeout, ed⟩ steps
  rw [hr, deliver, hout, Editor.handleAll_map_encodeChar hs hfree, ← hline]
  exact ⟨rfl, rfl, rfl, rfl⟩

/-- A read ends inside the first character; the blanks between the quotes stay. -/
theorem run_encode_quoted :
    let s := "é  \"a  b\"  ".toList
    let steps : List Input.Step :=
      [.read [0xc3], .wait 9, .read [0xa9, 0x20, 0x20, 0x22, 0x61], .read [],
        .read [0x20, 0x20, 0x62, 0x22, 0x20, 0x20]]
    let ed := Editor.fresh defaultWordChars (.empty (some 5)) none
    let r := (⟨.fresh true 10, ed⟩ : Terminal).run .default steps
    (∀ c ∈ s, isPrintable c = true) ∧ Input.received steps = Utf8.encode s ∧
      ((Input.fresh true 10).run steps).1 = s.map Utf8.encodeChar ∧
      r.terminal.editor = { ed with line := ⟨"é \"a  b\" ".toList, 9⟩ } := by
  intro s steps ed r
  have hs : ∀ c ∈ s, isPrintable c = true := List.all_eq_true.1 (by decide +kernel)
  have hcut : Input.received steps = Utf8.encode s := by decide +kernel
  have hsqueezed : squeezed s = "é \"a  b\" ".toList := by decide +kernel
  obtain ⟨hout, hed, -⟩ :=
    @run_encode .default none rfl defaultWordChars (some 5) 10 s hs steps (by decide +kernel) hcut
  rw [hsqueezed] at hed
  exact ⟨hs, hcut, hout, hed⟩

end Terminal

end ShellLine
