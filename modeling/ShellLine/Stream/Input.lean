import ShellLine.Stream.Split

/-!
# Stream/Input — reads from a terminal, put together into keys

What one read brings may be several keys, a part of one, or a part of a paste.  An input stream
keeps what is not whole yet: the held beginning of a key, or the body of a paste up to now.  A paste
is passed on in one piece with its marks.  The held beginning of a key is passed on as it is when
nothing more comes in time; a stream without a clock passes it on at once.

* `absorb` takes bytes in and gives the whole keys and what is left over.
* `Input.process`, `Input.flush`, `Input.clear` and `Input.wait` are what can happen to a stream.

What is left over is held or belongs to a paste, never both.  Stream/Buffer keeps it in separate
fields, where that has to be proved.
-/

namespace ShellLine

/-- What is left over of a stream: the beginning of a key, or a paste that has not ended. -/
inductive Pending
  | held (data : List UInt8)
  | pasting (body : List UInt8)
  deriving DecidableEq, Inhabited

/-- The bytes in front of the first place where a mark stands, and those after it. -/
def splitAtMark? (mark : List UInt8) : List UInt8 → Option (List UInt8 × List UInt8)
  | [] => none
  | b :: s =>
    if mark.isPrefixOf (b :: s) then some ([], (b :: s).drop mark.length)
    else (splitAtMark? mark s).map fun p => (b :: p.1, p.2)

/-- A paste with its marks. -/
def pasteSequence (body : List UInt8) : List UInt8 := pasteStart ++ body ++ pasteEnd

theorem length_of_splitAtMark? {mark : List UInt8} (hm : mark ≠ []) :
    ∀ {s before after : List UInt8}, splitAtMark? mark s = some (before, after) →
      after.length < s.length
  | [], _, _, h => by simp [splitAtMark?] at h
  | b :: s, before, after, h => by
      unfold splitAtMark? at h
      split at h
      · simp only [Option.some.injEq, Prod.mk.injEq] at h
        have := List.length_pos_iff.2 hm
        rw [← h.2, List.length_drop, List.length_cons]
        omega
      · simp only [Option.map_eq_some_iff, Prod.mk.injEq] at h
        obtain ⟨p, hp, rfl, rfl⟩ := h
        have := length_of_splitAtMark? hm hp
        simp only [List.length_cons]
        omega

/-- Take bytes in, inside a paste or outside: the keys and pastes that are whole, in order, and what
is left over. The beginning of a key that a paste cuts off is dropped. -/
def absorb (pasting : Bool) (data : List UInt8) : List (List UInt8) × Pending :=
  if pasting then
    match h : splitAtMark? pasteEnd data with
    | none => ([], .pasting data)
    | some (body, after) =>
      have := length_of_splitAtMark? (by decide) h
      let r := absorb false after
      (pasteSequence body :: r.1, r.2)
  else
    match h : splitAtMark? pasteStart data with
    | none =>
      let r := splitKeys data
      (r.1, .held r.2)
    | some (before, after) =>
      have := length_of_splitAtMark? (by decide) h
      let r := absorb true after
      ((splitKeys before).1 ++ r.1, r.2)
termination_by data.length

/-- A stream of input. `clocked` says whether a clock runs, `now` is its time, and `deadline?` the
time at which held bytes are passed on. -/
structure Input where
  pending : Pending
  clocked : Bool
  timeout : Int
  now : Int
  deadline? : Option Int
  deriving DecidableEq

namespace Input

/-- A stream that nothing has come from. -/
def fresh (clocked : Bool) (timeout : Int) : Input := ⟨.held [], clocked, timeout, 0, none⟩

/-- The held beginning of a key. -/
def held (i : Input) : List UInt8 :=
  match i.pending with
  | .held data => data
  | .pasting _ => []

/-- Is a paste under way? -/
def isPasting (i : Input) : Bool :=
  match i.pending with
  | .held _ => false
  | .pasting _ => true

/-- Drop the deadline. -/
def cancel (i : Input) : Input := { i with deadline? := none }

/-- Give up what is held, and drop the deadline. -/
def flush (i : Input) : List (List UInt8) × Input :=
  if i.held = [] then ([], i.cancel)
  else ([i.held], { i with pending := .held [], deadline? := none })

/-- Decide about held bytes after a read: with a clock they wait, without one they are passed on. -/
def settle (i : Input) : List (List UInt8) × Input :=
  if i.held = [] then ([], i.cancel)
  else if i.clocked then ([], { i with deadline? := some (i.now + i.timeout) })
  else i.flush

/-- Take in what a read brought: the sequences that are passed on, and the stream after it. -/
def process (i : Input) (data : List UInt8) : List (List UInt8) × Input :=
  let (out, pending) := match i.pending with
    | .held held => absorb false (held ++ data)
    | .pasting body => absorb true (body ++ data)
  let (late, i) := settle { i with pending, deadline? := none }
  (out ++ late, i)

/-- Forget everything that is not whole. -/
def clear (i : Input) : Input := { i with pending := .held [], deadline? := none }

/-- Let time pass; at the deadline held bytes are passed on. -/
def wait (i : Input) (ticks : Int) : List (List UInt8) × Input :=
  let i := { i with now := i.now + ticks }
  match i.deadline? with
  | some t => if t ≤ i.now then i.flush else ([], i)
  | none => ([], i)

end Input

end ShellLine
