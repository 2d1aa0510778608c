import ShellLine.Editor.History
import ShellLine.Key.Bindings
import ShellLine.Key.Decode
import ShellLine.Line.Typing

/-!
# Editor/Basic — a line editor that is driven by events

An editor has a line, a history and bindings.  An event that is bound to an action does that; a
paste or a plain character is typed; anything else does nothing.  Walking up the history puts the
line that was being typed aside as a draft, and walking down to its end brings it back.

* `Editor.perform` is what each action does; `Editor.handle` is what an event does.
* `Reply` says what was done, `Signal` what the outside has to be told.
-/

namespace ShellLine

/-- A line editor. Without bindings of its own it uses those it shares with others. -/
structure Editor where
  line : Line
  history : History
  bindings? : Option Bindings
  wordChars : List Char
  draft? : Option Line

/-- What an event did: an action, or typing. -/
inductive Reply
  | performed (a : Action)
  | inserted
  deriving DecidableEq

/-- The name of what was done. -/
def Reply.name : Reply → List Char
  | performed a => a.name
  | inserted => "insert".toList

/-- What the outside is told: that a line was entered, or that the user wants to leave. -/
inductive Signal
  | submitted (text : List Char) (command : Command)
  | exited
  deriving DecidableEq

/-- An editor after an event, what was done, and what the outside is told. -/
structure Outcome where
  editor : Editor
  reply? : Option Reply
  signals : List Signal

namespace Editor

/-- An editor with nothing typed. -/
def fresh (wordChars : List Char) (history : History) (bindings? : Option Bindings) : Editor :=
  ⟨.empty, history, bindings?, wordChars, none⟩

/-- The bindings in use. -/
def bindings (shared : Bindings) (ed : Editor) : Bindings := ed.bindings?.getD shared

/-- Is the character a boundary of words? -/
def isBoundary (ed : Editor) (c : Char) : Bool := ed.wordChars.contains c

/-- Replace the line; the cursor goes to its end. -/
def setText (ed : Editor) (s : List Char) : Editor := { ed with line := (Line.ofText s).toEnd }

/-- Recall the next older entry. The first time, the line is put aside as the draft. -/
def recallOlder (ed : Editor) : Editor :=
  let history := ed.history.older
  match history.current? with
  | none => { ed with history }
  | some entry => setText { ed with history, draft? := some (ed.draft?.getD ed.line) } entry

/-- Recall the next newer entry; after the newest, bring the draft back. -/
def recallNewer (ed : Editor) : Editor :=
  if ed.history.position = 0 then ed
  else
    let history := ed.history.newer
    match history.current? with
    | some entry => setText { ed with history } entry
    | none => { ed with history, draft? := none, line := (ed.draft?.getD .empty).toEnd }

/-- Enter the line, if there is any text. -/
def submit (ed : Editor) : Editor × List Signal :=
  if ed.line.isEmpty then (ed, [])
  else
    ({ ed with line := .empty, history := ed.history.push ed.line.text, draft? := none },
      [.submitted ed.line.text ed.line.command])

/-- Clear the line and stop recalling. -/
def clearLine (ed : Editor) : Editor :=
  { ed with line := ed.line.clear, history := ed.history.reset, draft? := none }

/-- Change the line. -/
def mapLine (ed : Editor) (f : Line → Line) : Editor := { ed with line := f ed.line }

/-- Do an action. -/
def perform (ed : Editor) : Action → Editor × List Signal
  | .historyUp => (ed.recallOlder, [])
  | .historyDown => (ed.recallNewer, [])
  | .cursorLeft => (ed.mapLine (·.back 1), [])
  | .cursorRight => (ed.mapLine (·.forward 1), [])
  | .cursorWordLeft => (ed.mapLine (·.backWord ed.isBoundary), [])
  | .cursorWordRight => (ed.mapLine (·.forwardWord ed.isBoundary), [])
  | .cursorLineStart => (ed.mapLine Line.toStart, [])
  | .cursorLineEnd => (ed.mapLine Line.toEnd, [])
  | .deleteCharBackward => (ed.mapLine Line.remove, [])
  | .deleteCharForward => (ed.mapLine Line.removeNext, [])
  | .deleteWordBackward => (ed.mapLine (·.removeWord ed.isBoundary), [])
  | .deleteToLineEnd => (ed.mapLine Line.removeEnd, [])
  | .clearLine => (ed.clearLine, [])
  | .submit => ed.submit
  | .exit => (ed, [.exited])

/-- The text an event types when it is bound to nothing. -/
def typed? : Event → Option (List Char)
  | .paste text => some text
  | .press .space mods => if mods.isEmpty then some [' '] else none
  | .press (.char c) mods => if mods.isEmpty then some [c] else none
  | .press _ _ => none

/-- Apply an event. -/
def handle (shared : Bindings) (ed : Editor) (e : Event) : Outcome :=
  match (ed.bindings shared).actionFor? e with
  | some a =>
    let (ed, signals) := ed.perform a
    ⟨ed, some (.performed a), signals⟩
  | none =>
    match typed? e with
    | some s => ⟨ed.mapLine (·.insertText s), some .inserted, []⟩
    | none => ⟨ed, none, []⟩

/-- Apply the bytes of one key. -/
def handleBytes (shared : Bindings) (ed : Editor) (data : List UInt8) : Outcome :=
  match decode data with
  | some e => ed.handle shared e
  | none => ⟨ed, none, []⟩

/-- The command the line holds. -/
def command (ed : Editor) : Command := ed.line.command

/-- Enter a line from outside. -/
def pushHistory (ed : Editor) (s : List Char) : Editor := { ed with history := ed.history.push s }

end Editor

end ShellLine
