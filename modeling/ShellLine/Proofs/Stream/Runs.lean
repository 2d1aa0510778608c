import ShellLine.Proofs.Stream.Absorb

/-!
# Proofs/Stream/Runs — what happens to a stream, one step after the other

A run of a stream is a list of steps: a read, a pause, a flush, a clear.  It is undisturbed when it
only reads, and no pause lasts until held bytes are passed on.

* `process_eq` says what a read does: `absorb` the bytes behind what is pending, then decide about
  what is held.
* `run_of_undisturbed` is the induction over undisturbed runs: only reads count.
-/

namespace ShellLine

namespace Input

theorem process_eq (i : Input) (data : List UInt8) :
    i.process data =
      let r := absorb i.pending.isPasting (i.pending.data ++ data)
      let l := settle { i with pending := r.2, deadline? := none }
      (r.1 ++ l.1, l.2) := by
  unfold process
  cases i.pending <;> rfl

/-- With a clock held bytes wait. -/
theorem settle_clocked {i : Input} (h : i.clocked = true) :
    i.settle.1 = [] ∧ i.settle.2.pending = i.pending ∧ i.settle.2.clocked = true := by
  unfold settle
  split
  · exact ⟨rfl, rfl, h⟩
  · exact ⟨rfl, rfl, h⟩

/-- With a clock a read does what `absorb` does. -/
theorem process_clocked {i : Input} (h : i.clocked = true) (data : List UInt8) :
    ((i.process data).1, (i.process data).2.pending) =
      absorb i.pending.isPasting (i.pending.data ++ data) ∧ (i.process data).2.clocked = true := by
  rw [process_eq]
  obtain ⟨hout, hpending, hclocked⟩ := settle_clocked (i := { i with
    pending := (absorb i.pending.isPasting (i.pending.data ++ data)).2, deadline? := none }) h
  exact ⟨by simp only [hout, hpending, List.append_nil], hclocked⟩

/-- Deciding about held bytes loses none. -/
theorem bytes_settle (i : Input) :
    i.settle.1.flatten ++ i.settle.2.pending.bytes = i.pending.bytes := by
  unfold settle flush
  split
  · rfl
  · split
    · rfl
    · obtain ⟨_ | _, _, _, _, _⟩ := i <;> simp_all [Input.held, Pending.bytes]

/-! ## Runs -/

/-- What can happen to a stream. -/
inductive Step
  | read (data : List UInt8)
  | wait (ticks : Int)
  | flush
  | clear
  deriving DecidableEq

/-- The bytes that a step brings. -/
def Step.data : Step → List UInt8
  | read data => data
  | _ => []

/-- The bytes that some steps bring. -/
def received (steps : List Step) : List UInt8 := (steps.map Step.data).flatten

/-- Take a step: the sequences that are passed on, and the stream after it. What a flush gives is
handed back and not passed on. -/
def step (i : Input) : Step → List (List UInt8) × Input
  | .read data => i.process data
  | .wait ticks => i.wait ticks
  | .flush => ([], i.flush.2)
  | .clear => ([], i.clear)

/-- Take some steps, one after the other. -/
def run (i : Input) : List Step → List (List UInt8) × Input
  | [] => ([], i)
  | s :: steps =>
    let (out, i) := i.step s
    let (rest, i) := i.run steps
    (out ++ rest, i)

/-- Do the steps only read, with pauses that end before held bytes are passed on? -/
def isUndisturbed (i : Input) : List Step → Bool
  | [] => true
  | .read data :: steps => (i.process data).2.isUndisturbed steps
  | .wait ticks :: steps =>
    i.deadline?.all (fun t => i.now + ticks < t) && (i.wait ticks).2.isUndisturbed steps
  | _ => false

@[simp] theorem received_nil : received [] = [] := rfl

@[simp] theorem received_cons (s : Step) (steps : List Step) :
    received (s :: steps) = s.data ++ received steps := by simp [received]

theorem run_append (i : Input) (steps later : List Step) :
    i.run (steps ++ later) =
      ((i.run steps).1 ++ ((i.run steps).2.run later).1, ((i.run steps).2.run later).2) := by
  induction steps generalizing i with
  | nil => rfl
  | cons s steps ih => simp only [List.cons_append, run, ih, List.append_assoc]

/-- A pause that ends before the deadline passes nothing on. -/
theorem wait_of_lt {i : Input} {ticks : Int}
    (h : i.deadline?.all (fun t => i.now + ticks < t) = true) :
    i.wait ticks = ([], { i with now := i.now + ticks }) := by
  unfold wait
  cases hd : i.deadline? with
  | none => rfl
  | some t =>
    simp only [hd, Option.all_some, decide_eq_true_eq] at h
    simp only [if_neg (Int.not_le.2 h)]

/-- **An invariant of an undisturbed run**: what reads keep up is kept up, for the clock alone does
not touch what is pending. -/
theorem run_of_undisturbed {motive : Input → List Step → Prop} (hnil : ∀ i, motive i [])
    (hread : ∀ i data steps, motive (i.process data).2 steps → motive i (.read data :: steps))
    (hwait : ∀ i ticks steps, i.wait ticks = ([], { i with now := i.now + ticks }) →
      motive { i with now := i.now + ticks } steps → motive i (.wait ticks :: steps)) :
    ∀ (steps : List Step) (i : Input), i.isUndisturbed steps = true → motive i steps
  | [], i, _ => hnil i
  | .read data :: steps, i, h =>
    hread i data steps (run_of_undisturbed hnil hread hwait steps _ h)
  | .wait ticks :: steps, i, h => by
      rw [isUndisturbed, Bool.and_eq_true] at h
      have hw := wait_of_lt h.1
      rw [hw] at h
      exact hwait i ticks steps hw (run_of_undisturbed hnil hread hwait steps _ h.2)
  | .flush :: _, _, h => by simp [isUndisturbed] at h
  | .clear :: _, _, h => by simp [isUndisturbed] at h

end Input

end ShellLine
