import Mathlib.Algebra.Ring.Int.Defs
import ShellLine.Proofs.Stream.Soundness

/-!
# Proofs/Stream/Delivery — held bytes are passed on, in time and once

As long as no paste begins, what a stream has passed on and what it holds are the bytes that came
in, however reads and pauses follow each other (`passesOn_run`).  A key that is cut may be made
whole by the next read, or be passed on as it is when the deadline comes; never both.

The two engines are `PassesOn`, which puts steps together, and `run_pauses`: pauses alone leave all
as it is, or pass on what is held as one sequence.  That they do so in time is due to `IsPunctual`,
for no step leaves a deadline behind that has passed.
-/

namespace ShellLine

namespace Input

variable {i : Input} {bytes more : List UInt8} {r r' : List (List UInt8) × Input}

/-! ## Bytes that are passed on -/

/-- Outside pastes, the bytes are those of the sequences that were passed on, none of them empty,
and what is held behind them. -/
structure PassesOn (bytes : List UInt8) (r : List (List UInt8) × Input) : Prop where
  flatten_append_held : r.1.flatten ++ r.2.held = bytes
  ne_nil : ∀ x ∈ r.1, x ≠ []
  outside : r.2.isPasting = false

namespace PassesOn

/-- What is held may stay. -/
protected theorem refl (hp : i.isPasting = false) : PassesOn i.held ([], i) where
  flatten_append_held := List.nil_append _
  ne_nil _ hx := absurd hx List.not_mem_nil
  outside := hp

theorem trans (h : PassesOn bytes r) (h' : PassesOn (r.2.held ++ more) r') :
    PassesOn (bytes ++ more) (r.1 ++ r'.1, r'.2) where
  flatten_append_held := by
    rw [List.flatten_append, List.append_assoc, h'.flatten_append_held, ← List.append_assoc,
      h.flatten_append_held]
  ne_nil x hx := (List.mem_append.1 hx).elim (h.ne_nil x) (h'.ne_nil x)
  outside := h'.outside

end PassesOn

theorem passesOn_flush (hp : i.isPasting = false) : PassesOn i.held i.flush := by
  rw [flush]
  split_ifs with hheld
  · exact .refl (i := i.cancel) hp
  · exact ⟨by simp [held], by simpa using hheld, rfl⟩

theorem passesOn_settle (hp : i.isPasting = false) : PassesOn i.held i.settle := by
  rw [settle]
  split_ifs
  · exact .refl (i := i.cancel) hp
  · exact .refl (i := { i with deadline? := some (i.now + i.timeout) }) hp
  · exact passesOn_flush hp

theorem passesOn_wait (hp : i.isPasting = false) (ticks : Int) :
    PassesOn i.held (i.wait ticks) := by
  rw [wait]
  split
  · split_ifs
    · exact passesOn_flush (i := { i with now := i.now + ticks }) hp
    · exact .refl (i := { i with now := i.now + ticks }) hp
  · exact .refl (i := { i with now := i.now + ticks }) hp

/-- A read takes out the keys of what is held and of what it brings. -/
theorem passesOn_process {data : List UInt8} (hp : i.isPasting = false)
    (hmark : ¬ pasteStart <:+: i.held ++ data) : PassesOn (i.held ++ data) (i.process data) := by
  rw [process_eq, pending_of_not_isPasting hp]
  simp only [Pending.isPasting, Pending.data, absorb_of_held hmark]
  generalize hkept : { i with
    pending := .held (splitKeys (i.held ++ data)).2, deadline? := none } = kept
  have hsplit : PassesOn (i.held ++ data) ((splitKeys (i.held ++ data)).1, kept) := by
    subst hkept
    exact ⟨flatten_splitKeys _, fun x hx => (isKey_of_mem_splitKeys x hx).ne_nil, rfl⟩
  have hsettle : PassesOn (kept.held ++ []) kept.settle := by
    rw [List.append_nil]
    exact passesOn_settle hsplit.outside
  have hread := hsplit.trans hsettle
  rwa [List.append_nil] at hread

theorem passesOn_step {s : Step} (hs : s ≠ .flush ∧ s ≠ .clear) (hp : i.isPasting = false)
    (hmark : ¬ pasteStart <:+: i.held ++ s.data) : PassesOn (i.held ++ s.data) (i.step s) := by
  cases s with
  | read data => exact passesOn_process hp hmark
  | wait ticks =>
    change PassesOn (i.held ++ []) (i.wait ticks)
    rw [List.append_nil]
    exact passesOn_wait hp ticks
  | flush => exact absurd rfl hs.1
  | clear => exact absurd rfl hs.2

/-- **As long as no paste begins, no byte is lost and none comes twice.** -/
theorem passesOn_run {steps : List Step} (hsteps : .flush ∉ steps ∧ .clear ∉ steps)
    (hp : i.isPasting = false) (hmark : ¬ pasteStart <:+: i.held ++ received steps) :
    PassesOn (i.held ++ received steps) (i.run steps) := by
  induction steps generalizing i with
  | nil =>
    rw [received_nil, List.append_nil]
    exact .refl hp
  | cons s steps ih =>
    simp only [List.mem_cons, not_or] at hsteps
    rw [received_cons, ← List.append_assoc] at hmark ⊢
    have hfirst : PassesOn (i.held ++ s.data) (i.step s) :=
      passesOn_step ⟨Ne.symm hsteps.1.1, Ne.symm hsteps.2.1⟩ hp fun h =>
        hmark (h.trans (List.prefix_append _ _).isInfix)
    refine hfirst.trans (ih ⟨hsteps.1.2, hsteps.2.2⟩ hfirst.outside fun h => hmark ?_)
    rw [← hfirst.flatten_append_held, List.append_assoc]
    exact h.trans (List.suffix_append _ _).isInfix

/-! ## Pauses -/

/-- A pause leaves all as it is, or passes on what is held. -/
theorem wait_cases (hi : i.IsSound) (ticks : Int) :
    i.wait ticks = ([], { i with now := i.now + ticks }) ∨
      i.held ≠ [] ∧ i.wait ticks =
        ([i.held], { i with pending := .held [], now := i.now + ticks, deadline? := none }) := by
  obtain ⟨pending, clocked, timeout, now, deadline?⟩ := i
  cases deadline? with
  | none => exact .inl rfl
  | some t =>
    have hheld := hi.deadline_iff.1 rfl
    rw [wait]
    simp only
    split_ifs
    · exact .inr ⟨hheld, if_neg hheld⟩
    · exact .inl rfl

/-- **Pauses, one after the other, leave all as it is, or pass on once what is held.** -/
theorem run_pauses (hi : i.IsSound) (ticks : List Int) :
    i.run (ticks.map .wait) = ([], { i with now := i.now + ticks.sum }) ∨
      i.held ≠ [] ∧ i.run (ticks.map .wait) =
        ([i.held], { i with pending := .held [], now := i.now + ticks.sum, deadline? := none }) := by
  induction ticks generalizing i with
  | nil => exact .inl (by simp [run])
  | cons t ticks ih =>
    have hnow : i.now + (t :: ticks).sum = i.now + t + ticks.sum := by
      rw [List.sum_cons, Int.add_assoc]
    have hsound := hi.wait t
    rw [List.map_cons, run, step, hnow]
    rcases wait_cases hi t with hwait | ⟨hheld, hwait⟩
    · rw [hwait] at hsound ⊢
      exact ih hsound
    · rw [hwait] at hsound ⊢
      -- nothing is held any more, so what comes later passes nothing on
      rcases ih hsound with hrest | ⟨hnil, -⟩
      · refine .inr ⟨hheld, ?_⟩
        simp only [hrest, List.append_nil]
      · exact absurd rfl hnil

/-! ## Deadlines -/

/-- Held bytes have to wait, and no deadline has passed. -/
structure IsPunctual (i : Input) : Prop where
  timeout_pos : 0 < i.timeout
  now_lt : ∀ t ∈ i.deadline?, i.now < t

/-- Without a deadline none has passed. -/
theorem IsPunctual.of_deadline (htimeout : 0 < i.timeout) (hdeadline : i.deadline? = none) :
    i.IsPunctual where
  timeout_pos := htimeout
  now_lt := by simp [hdeadline]

@[simp] theorem deadline?_flush (i : Input) : i.flush.2.deadline? = none := by
  rw [flush]
  split <;> rfl

theorem isPunctual_flush (htimeout : 0 < i.timeout) : i.flush.2.IsPunctual := by
  refine .of_deadline ?_ (deadline?_flush i)
  rwa [show i.flush.2.timeout = i.timeout from congrArg Prod.snd (clock_flush i)]

theorem isPunctual_settle (htimeout : 0 < i.timeout) : i.settle.2.IsPunctual := by
  rw [settle]
  split_ifs
  · exact .of_deadline htimeout rfl
  · refine ⟨htimeout, ?_⟩
    rintro t ⟨⟩
    exact Int.lt_add_of_pos_right i.now htimeout
  · exact isPunctual_flush htimeout

namespace IsPunctual

theorem wait (h : i.IsPunctual) (ticks : Int) : (i.wait ticks).2.IsPunctual := by
  rw [Input.wait]
  simp only
  split
  next t hdeadline =>
    split_ifs with hdue
    · exact isPunctual_flush h.timeout_pos
    · refine ⟨h.timeout_pos, ?_⟩
      rintro t' ht'
      obtain rfl : t = t' := by simpa [hdeadline] using ht'
      exact Int.not_le.1 hdue
  next hdeadline => exact .of_deadline h.timeout_pos hdeadline

theorem step (h : i.IsPunctual) (s : Step) : (i.step s).2.IsPunctual := by
  cases s with
  | read data =>
    rw [Input.step, process_eq]
    exact isPunctual_settle h.timeout_pos
  | wait ticks => exact h.wait ticks
  | flush => exact isPunctual_flush h.timeout_pos
  | clear => exact .of_deadline h.timeout_pos rfl

theorem run (h : i.IsPunctual) (steps : List Step) : (i.run steps).2.IsPunctual := by
  induction steps generalizing i with
  | nil => exact h
  | cons s steps ih => exact ih (h.step s)

end IsPunctual

/-- What a read leaves held has the whole time to wait. -/
theorem deadline?_process {data : List UInt8} (h : (i.process data).2.held ≠ []) :
    (i.process data).2.deadline? =
      some ((i.process data).2.now + (i.process data).2.timeout) := by
  rw [process_eq] at h ⊢
  simp only [settle] at h ⊢
  split_ifs at h ⊢ with hheld
  · exact absurd hheld h
  · rfl
  · rw [flush, if_neg hheld] at h
    exact absurd rfl h

/-- **When enough time has passed since a read, what it left held has been passed on**, once and as
one sequence. -/
theorem run_late_pauses (hi : i.IsPunctual) (data : List UInt8) {ticks : List Int}
    (hlate : i.timeout ≤ ticks.sum) :
    let j := (i.process data).2
    (j.run (ticks.map .wait)).1 = (if j.held = [] then [] else [j.held]) ∧
      (j.run (ticks.map .wait)).2.held = [] := by
  intro j
  have hsound : j.IsSound := isSound_process i data
  have hpunctual : (j.run (ticks.map .wait)).2.IsPunctual := (hi.step (.read data)).run _
  have htimeout : j.timeout = i.timeout := congrArg Prod.snd (clock_step i (.read data))
  have hdeadline : j.held ≠ [] → j.deadline? = some (j.now + j.timeout) := deadline?_process
  rcases run_pauses hsound ticks with hrun | ⟨hheld, hrun⟩
  · have hheld : j.held = [] := by
      by_contra hne
      rw [hrun] at hpunctual
      have hlt := hpunctual.now_lt _ (hdeadline hne)
      simp only at hlt
      omega
    rw [hrun, if_pos hheld]
    exact ⟨rfl, hheld⟩
  · rw [hrun, if_neg hheld]
    exact ⟨rfl, rfl⟩

/-! ## Runs -/

/-- **Held bytes are passed on in time and once.**  Reads and pauses follow each other in any order,
and the bytes that come in hold no first mark of a paste.  Then what was passed on and what is held
are these bytes, at any moment, and no sequence is empty.  Once the pauses since the last read have
lasted for the timeout, nothing is held, and what the read left held was passed on as one
sequence. -/
theorem run_delivers {timeout : Int} (htimeout : 0 < timeout) {steps : List Step}
    (hsteps : .flush ∉ steps ∧ .clear ∉ steps) (hmark : ¬ pasteStart <:+: received steps) :
    let r := (fresh true timeout).run steps
    r.1.flatten ++ r.2.held = received steps ∧ (∀ x ∈ r.1, x ≠ []) ∧ r.2.isPasting = false ∧
      ∀ (before : List Step) (data : List UInt8) (ticks : List Int),
        steps = before ++ .read data :: ticks.map .wait → timeout ≤ ticks.sum →
        let q := (fresh true timeout).run (before ++ [.read data])
        r.2.held = [] ∧ r.1 = q.1 ++ if q.2.held = [] then [] else [q.2.held] := by
  intro r
  have hfresh : (fresh true timeout).IsPunctual := .of_deadline htimeout rfl
  have hpass : PassesOn (received steps) r :=
    passesOn_run (i := fresh true timeout) hsteps rfl hmark
  refine ⟨hpass.flatten_append_held, hpass.ne_nil, hpass.outside, ?_⟩
  intro before data ticks hcut hlate q
  have hr : r = (q.1 ++ (q.2.run (ticks.map .wait)).1, (q.2.run (ticks.map .wait)).2) := by
    have hsteps : steps = (before ++ [.read data]) ++ ticks.map .wait := by
      rw [hcut, List.append_cons]
    exact (congrArg _ hsteps).trans (run_append _ _ _)
  have hq : q.2 = (((fresh true timeout).run before).2.process data).2 := by
    have hlast := congrArg Prod.snd (run_append (fresh true timeout) before [.read data])
    exact hlast
  have htimeout' : ((fresh true timeout).run before).2.timeout = timeout :=
    congrArg Prod.snd (clock_run (fresh true timeout) before)
  obtain ⟨hout, hheld⟩ := run_late_pauses (hfresh.run before) data (htimeout' ▸ hlate)
  rw [hr, hq]
  exact ⟨hheld, congrArg _ hout⟩

/-- A character that a pause cuts comes out whole.  An escape and the beginning of a sequence come
out alone, each after two pauses that last for the timeout together. -/
theorem run_delivers_cut_keys :
    let steps : List Step :=
      [.read [0xc3], .wait 9, .read [0xa9, 0x1b], .wait 4, .wait 6, .read [0x41, 0x1b, 0x5b],
        .wait 3, .wait 7]
    let r := (fresh true 10).run steps
    let q := (fresh true 10).run (steps.take 6)
    (.flush ∉ steps ∧ .clear ∉ steps) ∧ ¬ pasteStart <:+: received steps ∧
      r.1.flatten ++ r.2.held = received steps ∧ q.2.held = [0x1b, 0x5b] ∧ r.2.held = [] ∧
      r.1 = [[0xc3, 0xa9], [0x1b], [0x41], [0x1b, 0x5b]] := by
  intro steps r q
  have hsteps : .flush ∉ steps ∧ .clear ∉ steps := by decide
  have hmark : ¬ pasteStart <:+: received steps := by decide
  have hheld : q.2.held = [0x1b, 0x5b] := by decide +kernel
  have hout : q.1 = [[0xc3, 0xa9], [0x1b], [0x41]] := by decide +kernel
  obtain ⟨hflat, -, -, hlate⟩ := run_delivers (by decide : (0 : Int) < 10) hsteps hmark
  obtain ⟨hnil, hr⟩ := hlate (steps.take 5) [0x41, 0x1b, 0x5b] [3, 7] rfl (by decide)
  refine ⟨hsteps, hmark, hflat, hheld, hnil, hr.trans ?_⟩
  change q.1 ++ (if q.2.held = [] then [] else [q.2.held]) = _
  rw [hheld, hout]
  rfl

end Input

end ShellLine
