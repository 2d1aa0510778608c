import ShellLine.Stream.Input

/-!
# Stream/Buffer — a stream in three fields

A buffer keeps the held bytes, whether a paste is under way, and the body of the paste in three
fields that nothing ties together, and works on them one at a time.  What a read brings goes to the
held bytes first, and from there into the body of a paste; what comes behind the end of a paste is
taken in like another read.

* `Buffer.process` and `Buffer.finishPaste` take in a read and look for the end of a paste.
* `Buffer.flush`, `Buffer.clear`, `Buffer.destroy` and `Buffer.wait` are what else can happen.
-/

namespace ShellLine

/-- A buffer. `clocked` says whether a clock runs, `now` is its time, and `deadline?` the time at
which held bytes are passed on. -/
structure Buffer where
  held : List UInt8
  isPasting : Bool
  body : List UInt8
  clocked : Bool
  timeout : Int
  now : Int
  deadline? : Option Int
  deriving DecidableEq

namespace Buffer

/-- A buffer that nothing has come to. -/
def fresh (clocked : Bool) (timeout : Int) : Buffer := ⟨[], false, [], clocked, timeout, 0, none⟩

/-- Drop the deadline. -/
def cancel (b : Buffer) : Buffer := { b with deadline? := none }

/-- Give up what is held, and drop the deadline. -/
def flush (b : Buffer) : List (List UInt8) × Buffer :=
  if b.held = [] then ([], b.cancel) else ([b.held], { b.cancel with held := [] })

/-- Decide about held bytes after a read: with a clock they wait, without one they are passed on. -/
def settle (b : Buffer) : List (List UInt8) × Buffer :=
  if b.held = [] then ([], b)
  else if b.clocked then ([], { b with deadline? := some (b.now + b.timeout) })
  else b.flush

/-- Take keys out of the held bytes. -/
def takeKeys (b : Buffer) : List (List UInt8) × Buffer :=
  let keys := splitKeys b.held
  let (late, b) := settle { b with held := keys.2 }
  (keys.1 ++ late, b)

mutual

/-- Take in what a read brought: the sequences that are passed on, and the buffer after it. Of what
is held in front of a paste only the whole keys are passed on. -/
def process (b : Buffer) (data : List UInt8) : List (List UInt8) × Buffer :=
  let b' := { b.cancel with held := b.held ++ data }
  if b.isPasting then finishPaste { b' with body := b'.body ++ b'.held, held := [] }
  else
    match h : splitAtMark? pasteStart b'.held with
    | none => takeKeys b'
    | some (before, after) =>
      have := length_of_splitAtMark? (by decide) h
      let r := finishPaste { b' with isPasting := true, body := after, held := [] }
      ((splitKeys before).1 ++ r.1, r.2)
termination_by (b.held.length + b.body.length + data.length, 1)
decreasing_by all_goals simp only [cancel, b', List.length_append, List.length_nil] at *; omega

/-- Pass on the paste if its end has come, and take in what came behind it. -/
def finishPaste (b : Buffer) : List (List UInt8) × Buffer :=
  match h : splitAtMark? pasteEnd b.body with
  | none => ([], b)
  | some (body, after) =>
    let b' := { b with isPasting := false, body := [] }
    if after = [] then ([pasteSequence body], b')
    else
      have := length_of_splitAtMark? (by decide) h
      let r := process b' after
      (pasteSequence body :: r.1, r.2)
termination_by (b.held.length + b.body.length, 0)
decreasing_by simp only [List.length_nil]; omega

end

/-- Forget everything that is not whole. -/
def clear (b : Buffer) : Buffer := { b.cancel with held := [], isPasting := false, body := [] }

/-- Give the buffer up. -/
def destroy (b : Buffer) : Buffer := b.clear

/-- Let time pass; at the deadline held bytes are passed on. -/
def wait (b : Buffer) (ticks : Int) : List (List UInt8) × Buffer :=
  let b := { b with now := b.now + ticks }
  match b.deadline? with
  | some t => if t ≤ b.now then b.cancel.flush else ([], b)
  | none => ([], b)

end Buffer

end ShellLine
