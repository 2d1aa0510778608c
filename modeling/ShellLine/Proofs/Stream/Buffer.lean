import ShellLine.Proofs.Stream.Soundness
import ShellLine.Stream.Buffer

/-!
# Proofs/Stream/Buffer — a buffer does what a stream does

A stream tells its held bytes from the body of a paste by its type; a buffer has a field for each and
a third one that says which of them counts.  `Input.toBuffer` spreads a stream over the three fields.
Each step of the buffer leads to where the step of the stream does and passes on the same
(`step_toBuffer`), so a run of a new buffer is one of a new stream (`run_fresh`), and what the three
fields hold after it is what a sound stream keeps (`pending_run_fresh`).

A read of the buffer calls itself at each end of a paste, so `process_toBuffer` goes from mark to
mark, as `absorb` does.
-/

namespace ShellLine

namespace Buffer

/-! ## From mark to mark -/

variable {b : Buffer} {data before after body : List UInt8}

/-- Inside a paste all that comes belongs to it, until its end is looked for. -/
theorem process_of_isPasting (hp : b.isPasting = true) (data : List UInt8) :
    b.process data =
      finishPaste { b.cancel with body := b.body ++ (b.held ++ data), held := [] } := by
  rw [process]
  exact if_pos hp

/-- Without a first mark keys are taken out. -/
theorem process_of_held (hp : b.isPasting = false) (h : ¬ pasteStart <:+: before)
    (hdata : b.held ++ data = before) :
    b.process data = takeKeys { b.cancel with held := before } := by
  subst hdata
  have hfind := (splitAtMark?_eq_none_iff pasteStart_ne_nil).2 h
  rw [process, if_neg (Bool.eq_false_iff.1 hp)]
  split
  next => rfl
  next hsome => cases hsome.symm.trans hfind

/-- At a first mark whole keys are taken out, and a paste begins. -/
theorem process_of_start (hp : b.isPasting = false) (h : ¬ pasteStart <:+: before)
    (hdata : b.held ++ data = before ++ (pasteStart ++ after)) :
    b.process data =
      let r := finishPaste { b.cancel with held := [], isPasting := true, body := after }
      ((splitKeys before).1 ++ r.1, r.2) := by
  have hfind := splitAtMark?_append_pasteStart after h
  rw [← hdata] at hfind
  rw [process, if_neg (Bool.eq_false_iff.1 hp)]
  split
  next hnone => cases hnone.symm.trans hfind
  next hsome =>
    cases hsome.symm.trans hfind
    rfl

/-- Held bytes count like those that come. -/
theorem process_held_append (b : Buffer) (data : List UInt8) :
    b.process data = process { b.cancel with held := [] } (b.held ++ data) := by
  rw [process, process]
  rfl

/-- Without a last mark the paste goes on. -/
theorem finishPaste_of_opened (h : ¬ pasteEnd <:+: b.body) : b.finishPaste = ([], b) := by
  have hfind := (splitAtMark?_eq_none_iff pasteEnd_ne_nil).2 h
  rw [finishPaste]
  split <;> simp_all

/-- At a last mark the paste is passed on, and what comes behind it is taken in. -/
theorem finishPaste_of_closed (h : ¬ pasteEnd <:+: body)
    (hbody : b.body = body ++ (pasteEnd ++ after)) :
    b.finishPaste =
      let b' := { b with isPasting := false, body := [] }
      if after = [] then ([pasteSequence body], b')
      else (pasteSequence body :: (b'.process after).1, (b'.process after).2) := by
  have hfind := splitAtMark?_append_pasteEnd after h
  rw [← hbody] at hfind
  rw [finishPaste]
  split
  next hnone => cases hnone.symm.trans hfind
  next hsome =>
    cases hsome.symm.trans hfind
    rfl

end Buffer

namespace Input

variable {i : Input}

/-- A stream spread over three fields. -/
def toBuffer (i : Input) : Buffer where
  held := i.held
  isPasting := i.isPasting
  body := i.body
  clocked := i.clocked
  timeout := i.timeout
  now := i.now
  deadline? := i.deadline?

theorem toBuffer_fresh (clocked : Bool) (timeout : Int) :
    (fresh clocked timeout).toBuffer = .fresh clocked timeout := rfl

/-- The same clock with other bytes pending, and no deadline. -/
def keeping (i : Input) (p : Pending) : Input := { i with pending := p, deadline? := none }

/-! ## Steps -/

theorem clear_toBuffer (i : Input) : i.toBuffer.clear = i.clear.toBuffer := rfl

theorem flush_toBuffer (i : Input) : i.toBuffer.flush = (i.flush.1, i.flush.2.toBuffer) := by
  obtain ⟨_ | body, _, _, _, _⟩ := i
  · rw [Buffer.flush, flush]
    split <;> simp_all [toBuffer, held, Buffer.cancel, cancel, isPasting, body]
  · rfl

theorem settle_toBuffer (h : i.deadline? = none) :
    i.toBuffer.settle = (i.settle.1, i.settle.2.toBuffer) := by
  have hcancel : i.cancel = i := by rw [cancel, ← h]
  rw [Buffer.settle, settle, hcancel]
  change (if i.held = [] then _ else if i.clocked = true then _ else _) = _
  split_ifs
  · rfl
  · rfl
  · exact flush_toBuffer i

/-- What a buffer does with bytes that go on outside a paste or inside. -/
def takeIn (i : Input) : Bool → List UInt8 → List (List UInt8) × Buffer
  | false, data => (i.keeping (.held [])).toBuffer.process data
  | true, body => (i.keeping (.pasting body)).toBuffer.finishPaste

theorem takeIn_nil (i : Input) : i.takeIn false [] = ([], (i.keeping (.held [])).toBuffer) := by
  have hkeys : splitKeys [] = ([], []) := by rw [splitKeys]
  have h : ¬ pasteStart <:+: [] := by decide
  rw [takeIn, Buffer.process_of_held rfl h rfl, Buffer.takeKeys, hkeys]
  rfl

/-- **From mark to mark a buffer takes in what a stream does**, and decides about held bytes where
the stream does, behind the last mark. -/
theorem takeIn_eq (i : Input) (pasting : Bool) (data : List UInt8) :
    i.takeIn pasting data =
      let r := absorb pasting data
      let l := settle (i.keeping r.2)
      (r.1 ++ l.1, l.2.toBuffer) := by
  induction pasting, data using marks_induction with
  | held data h =>
    have hsettle := settle_toBuffer (i := i.keeping (.held (splitKeys data).2)) rfl
    rw [takeIn, Buffer.process_of_held rfl h rfl, absorb_of_held h]
    exact congrArg (fun l => ((splitKeys data).1 ++ l.1, l.2)) hsettle
  | start before after h ih =>
    rw [takeIn, Buffer.process_of_start rfl h rfl, absorb_of_start h]
    dsimp only
    rw [List.append_assoc]
    exact congrArg (fun r => ((splitKeys before).1 ++ r.1, r.2)) ih
  | opened body h =>
    rw [takeIn, Buffer.finishPaste_of_opened h, absorb_of_opened h]
    rfl
  | closed body after h ih =>
    rw [takeIn, Buffer.finishPaste_of_closed h rfl, absorb_of_closed h]
    dsimp only
    split_ifs with hafter
    · rw [hafter, takeIn_nil] at ih
      rw [hafter]
      exact congrArg (fun r => (pasteSequence body :: r.1, r.2)) ih
    · exact congrArg (fun r => (pasteSequence body :: r.1, r.2)) ih

/-- **A read of a buffer is a read of a stream.** -/
theorem process_toBuffer (i : Input) (data : List UInt8) :
    i.toBuffer.process data = ((i.process data).1, (i.process data).2.toBuffer) := by
  rw [process_eq]
  refine Eq.trans ?_ (takeIn_eq i i.pending.isPasting (i.pending.data ++ data))
  obtain ⟨held | body, _, _, _, _⟩ := i
  · exact Buffer.process_held_append _ data
  · exact Buffer.process_of_isPasting rfl data

theorem wait_toBuffer (i : Input) (ticks : Int) :
    i.toBuffer.wait ticks = ((i.wait ticks).1, (i.wait ticks).2.toBuffer) := by
  obtain ⟨pending, clocked, timeout, now, _ | t⟩ := i
  · rfl
  · let later : Input := ⟨pending, clocked, timeout, now + ticks, some t⟩
    by_cases ht : t ≤ now + ticks
    · have hwait : wait ⟨pending, clocked, timeout, now, some t⟩ ticks = later.flush := if_pos ht
      rw [hwait]
      exact (if_pos ht).trans (flush_toBuffer later.cancel)
    · have hwait : wait ⟨pending, clocked, timeout, now, some t⟩ ticks = ([], later) := if_neg ht
      rw [hwait]
      exact if_neg ht

end Input

/-! ## Runs -/

namespace Buffer

/-- What can happen to a buffer. -/
inductive Step
  | read (data : List UInt8)
  | wait (ticks : Int)
  | flush
  | clear
  | destroy
  deriving DecidableEq

/-- The step of a stream that does the same: to give a buffer up is to clear it. -/
def Step.onInput : Step → Input.Step
  | read data => .read data
  | wait ticks => .wait ticks
  | flush => .flush
  | clear => .clear
  | destroy => .clear

/-- Take a step: the sequences that are passed on, and the buffer after it. What a flush gives is
handed back and not passed on. -/
def step (b : Buffer) : Step → List (List UInt8) × Buffer
  | .read data => b.process data
  | .wait ticks => b.wait ticks
  | .flush => ([], b.flush.2)
  | .clear => ([], b.clear)
  | .destroy => ([], b.destroy)

/-- Take some steps, one after the other. -/
def run (b : Buffer) : List Step → List (List UInt8) × Buffer
  | [] => ([], b)
  | s :: steps =>
    let (out, b) := b.step s
    let (rest, b) := b.run steps
    (out ++ rest, b)

/-- **A step of a buffer is a step of a stream.** -/
theorem step_toBuffer (i : Input) (s : Step) :
    i.toBuffer.step s = ((i.step s.onInput).1, (i.step s.onInput).2.toBuffer) := by
  cases s with
  | read data => exact i.process_toBuffer data
  | wait ticks => exact i.wait_toBuffer ticks
  | flush => exact congrArg (fun r => ([], r.2)) i.flush_toBuffer
  | clear => exact congrArg (Prod.mk []) i.clear_toBuffer
  | destroy => exact congrArg (Prod.mk []) i.clear_toBuffer

/-- **A run of a buffer is a run of a stream**: it passes on the same sequences and leads to where the
run of the stream does. -/
theorem run_toBuffer (i : Input) (steps : List Step) :
    let r := i.run (steps.map Step.onInput)
    i.toBuffer.run steps = (r.1, r.2.toBuffer) := by
  induction steps generalizing i with
  | nil => rfl
  | cons s steps ih => simp only [run, step_toBuffer, ih, List.map_cons, Input.run]

theorem run_fresh (clocked : Bool) (timeout : Int) (steps : List Step) :
    let r := (Input.fresh clocked timeout).run (steps.map Step.onInput)
    (fresh clocked timeout).run steps = (r.1, r.2.toBuffer) := by
  rw [← Input.toBuffer_fresh]
  exact run_toBuffer (.fresh clocked timeout) steps

/-- **Whatever happens to a new buffer, what it keeps is at its place.**  Inside a paste nothing is
held, no deadline is set, and the body holds no last mark.  Outside the body is empty, and what is
held has neither a whole key nor a first mark.  With a clock a deadline is set just while bytes are
held; without one they never are. -/
theorem pending_run_fresh (clocked : Bool) (timeout : Int) (steps : List Step) :
    let b := ((fresh clocked timeout).run steps).2
    (b.isPasting = true → b.held = [] ∧ b.deadline? = none ∧ ¬ pasteEnd <:+: b.body) ∧
      (b.isPasting = false →
        b.body = [] ∧ splitKeys b.held = ([], b.held) ∧ ¬ pasteStart <:+: b.held) ∧
      (clocked = true → (b.deadline?.isSome ↔ b.held ≠ [])) ∧
      (clocked = false → b.held = [] ∧ b.deadline? = none) := by
  intro b
  let i := ((Input.fresh clocked timeout).run (steps.map Step.onInput)).2
  have hb : b = i.toBuffer := congrArg Prod.snd (run_fresh clocked timeout steps)
  have hi : i.IsSound := (Input.isSound_fresh clocked timeout).run _
  have hclocked : i.clocked = clocked := congrArg Prod.fst (Input.clock_run _ _)
  rw [hb]
  exact ⟨hi.of_isPasting, hi.of_not_isPasting, fun _ => hi.deadline_iff,
    fun hunclocked => hi.of_not_clocked (hclocked.trans hunclocked)⟩

end Buffer

end ShellLine
