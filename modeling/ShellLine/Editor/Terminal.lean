import ShellLine.Editor.Basic
import ShellLine.Stream.Input

/-!
# Editor/Terminal — an editor at the end of an input stream

What comes from a terminal is put together into keys and handed to an editor key by key.

* `Editor.handleAll` is what several keys do, one after the other.
* `Terminal.feed` is what one read does, `Terminal.wait` what the passing of time does.
-/

namespace ShellLine

/-- An editor after several keys: what each of them did, and what the outside is told. -/
structure Progress where
  editor : Editor
  replies : List (Option Reply)
  signals : List Signal

/-- Apply the bytes of several keys, one after the other. -/
def Editor.handleAll (shared : Bindings) (ed : Editor) : List (List UInt8) → Progress
  | [] => ⟨ed, [], []⟩
  | data :: rest =>
    let o := ed.handleBytes shared data
    let p := handleAll shared o.editor rest
    ⟨p.editor, o.reply? :: p.replies, o.signals ++ p.signals⟩

/-- An input stream and the editor that its keys go to. -/
structure Terminal where
  input : Input
  editor : Editor

/-- A terminal after some input, and what came of it. -/
structure TerminalStep where
  terminal : Terminal
  replies : List (Option Reply)
  signals : List Signal

namespace Terminal

/-- Hand what the stream passes on to the editor. -/
def deliver (shared : Bindings) (t : Terminal) (out : List (List UInt8) × Input) : TerminalStep :=
  let p := t.editor.handleAll shared out.1
  ⟨⟨out.2, p.editor⟩, p.replies, p.signals⟩

/-- Take in what a read brought. -/
def feed (shared : Bindings) (t : Terminal) (data : List UInt8) : TerminalStep :=
  t.deliver shared (t.input.process data)

/-- Let time pass. -/
def wait (shared : Bindings) (t : Terminal) (ticks : Int) : TerminalStep :=
  t.deliver shared (t.input.wait ticks)

end Terminal

/-- Several keys and then others: what is done and told comes in the same order. -/
theorem Editor.handleAll_append (shared : Bindings) (ed : Editor) (xs ys : List (List UInt8)) :
    ed.handleAll shared (xs ++ ys) =
      let p := ed.handleAll shared xs
      let q := p.editor.handleAll shared ys
      ⟨q.editor, p.replies ++ q.replies, p.signals ++ q.signals⟩ := by
  induction xs generalizing ed with
  | nil => rfl
  | cons data xs ih => simp only [List.cons_append, handleAll, ih, List.append_assoc]

end ShellLine
