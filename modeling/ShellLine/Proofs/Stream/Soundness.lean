import ShellLine.Proofs.Stream.Runs

/-!
# Proofs/Stream/Soundness — what is pending and the deadline fit together

A stream keeps the beginning of a key or the body of a paste, and a deadline for what it holds.
`IsSound` says how they fit together: nothing that is kept could be passed on by now, and there is a
deadline just while bytes are held, which only a stream with a clock does.  Each step keeps that up
(`IsSound.step`), and so each run of a stream does (`IsSound.run`).
-/

namespace ShellLine

namespace Input

/-- The body of a paste that has not ended. -/
def body (i : Input) : List UInt8 :=
  match i.pending with
  | .held _ => []
  | .pasting body => body

/-- What a stream keeps up. -/
structure IsSound (i : Input) : Prop where
  settled : i.pending.IsSettled
  deadline_iff : i.deadline?.isSome ↔ i.held ≠ []
  clocked : i.held ≠ [] → i.clocked = true

variable {i : Input}

theorem pending_of_isPasting (hp : i.isPasting = true) : i.pending = .pasting i.body := by
  obtain ⟨_ | _, _, _, _, _⟩ := i
  · contradiction
  · rfl

theorem pending_of_not_isPasting (hp : i.isPasting = false) : i.pending = .held i.held := by
  obtain ⟨_ | _, _, _, _, _⟩ := i
  · rfl
  · contradiction

/-- Inside a paste nothing is held. -/
theorem held_of_isPasting (hp : i.isPasting = true) : i.held = [] := by
  rw [held, pending_of_isPasting hp]

theorem body_of_not_isPasting (hp : i.isPasting = false) : i.body = [] := by
  rw [body, pending_of_not_isPasting hp]

/-! ## Idle streams -/

theorem isSettled_nil : (Pending.held []).IsSettled := ⟨by rw [splitKeys], by decide⟩

/-- A stream that holds nothing needs no deadline. -/
theorem IsSound.of_held (hsettled : i.pending.IsSettled) (hheld : i.held = [])
    (hdeadline : i.deadline? = none) : i.IsSound where
  settled := hsettled
  deadline_iff := by
    rw [hdeadline]
    exact iff_of_false Bool.false_ne_true (not_not_intro hheld)
  clocked h := absurd hheld h

theorem isSound_fresh (clocked : Bool) (timeout : Int) : (fresh clocked timeout).IsSound :=
  .of_held isSettled_nil rfl rfl

/-! ## Steps -/

theorem isSound_clear (i : Input) : i.clear.IsSound := .of_held isSettled_nil rfl rfl

theorem isSound_flush (h : i.pending.IsSettled) : i.flush.2.IsSound := by
  rw [flush]
  split_ifs with hheld
  · exact .of_held h hheld rfl
  · exact .of_held isSettled_nil rfl rfl

theorem isSound_settle (h : i.pending.IsSettled) : i.settle.2.IsSound := by
  rw [settle]
  split_ifs with hheld hclock
  · exact .of_held h hheld rfl
  · exact ⟨h, iff_of_true rfl hheld, fun _ => hclock⟩
  · exact isSound_flush h

/-- After a read all that is kept is at its place, whatever was kept before. -/
theorem isSound_process (i : Input) (data : List UInt8) : (i.process data).2.IsSound := by
  rw [process_eq]
  exact isSound_settle (isSettled_absorb _ _)

namespace IsSound

theorem wait (hi : i.IsSound) (ticks : Int) : (i.wait ticks).2.IsSound := by
  have hlater : { i with now := i.now + ticks }.IsSound :=
    ⟨hi.settled, hi.deadline_iff, hi.clocked⟩
  rw [Input.wait]
  split
  · split_ifs
    · exact isSound_flush hi.settled
    · exact hlater
  · exact hlater

/-- **Every step keeps a stream sound.** -/
theorem step (hi : i.IsSound) (s : Step) : (i.step s).2.IsSound := by
  cases s with
  | read data => exact isSound_process i data
  | wait ticks => exact hi.wait ticks
  | flush => exact isSound_flush hi.settled
  | clear => exact isSound_clear i

theorem run (hi : i.IsSound) (steps : List Step) : (i.run steps).2.IsSound := by
  induction steps generalizing i with
  | nil => exact hi
  | cons s steps ih => exact ih (hi.step s)

theorem deadline?_eq_none_iff (hi : i.IsSound) : i.deadline? = none ↔ i.held = [] := by
  rw [← not_iff_not, ← ne_eq, ← ne_eq, Option.ne_none_iff_isSome, hi.deadline_iff]

/-! ## What a sound stream keeps -/

theorem of_isPasting (hi : i.IsSound) (hp : i.isPasting = true) :
    i.held = [] ∧ i.deadline? = none ∧ ¬ pasteEnd <:+: i.body := by
  have hheld := held_of_isPasting hp
  have hsettled := hi.settled
  rw [pending_of_isPasting hp] at hsettled
  exact ⟨hheld, hi.deadline?_eq_none_iff.2 hheld, hsettled⟩

theorem of_not_isPasting (hi : i.IsSound) (hp : i.isPasting = false) :
    i.body = [] ∧ splitKeys i.held = ([], i.held) ∧ ¬ pasteStart <:+: i.held := by
  have hsettled := hi.settled
  rw [pending_of_not_isPasting hp] at hsettled
  exact ⟨body_of_not_isPasting hp, hsettled⟩

/-- Without a clock nothing is held. -/
theorem of_not_clocked (hi : i.IsSound) (h : i.clocked = false) :
    i.held = [] ∧ i.deadline? = none := by
  have hheld : i.held = [] := by
    by_contra hne
    rw [hi.clocked hne] at h
    contradiction
  exact ⟨hheld, hi.deadline?_eq_none_iff.2 hheld⟩

end IsSound

/-! ## The clock stays

No step starts the clock of a stream or stops it, or changes how long held bytes wait. -/

/-- Whether the clock runs, and how long held bytes wait. -/
def clock (i : Input) : Bool × Int := (i.clocked, i.timeout)

@[simp] theorem clock_flush (i : Input) : i.flush.2.clock = i.clock := by
  rw [flush]
  split <;> rfl

@[simp] theorem clock_settle (i : Input) : i.settle.2.clock = i.clock := by
  rw [settle]
  split_ifs
  · rfl
  · rfl
  · exact clock_flush i

@[simp] theorem clock_wait (i : Input) (ticks : Int) : (i.wait ticks).2.clock = i.clock := by
  rw [wait]
  split
  · split_ifs
    · exact clock_flush _
    · rfl
  · rfl

@[simp] theorem clock_step (i : Input) (s : Step) : (i.step s).2.clock = i.clock := by
  cases s with
  | read data =>
    rw [step, process_eq]
    exact clock_settle _
  | wait ticks => exact clock_wait i ticks
  | flush => exact clock_flush i
  | clear => rfl

@[simp] theorem clock_run (i : Input) (steps : List Step) : (i.run steps).2.clock = i.clock := by
  induction steps generalizing i with
  | nil => rfl
  | cons s steps ih => exact (ih (i.step s).2).trans (clock_step i s)

end Input

end ShellLine
