import ShellLine.Json.Basic
import ShellLine.Key.Chord
import ShellLine.Line.Typing

/-!
# Cli/Report — what the command line prints

Tokens, assignments, commands, events and lines as objects of JSON, with their fields in the order
in which they are printed.
-/

namespace ShellLine.Report

/-- A field of an object. -/
def field (name : String) (v : Json) : List Char × Json := (name.toList, v)

/-- A text. -/
def text (s : String) : Json := .str s.toList

/-- A value. -/
def value : Value → Json
  | .word s =>
    .obj [field "type" (text "Word"), field "content" (.str s), field "text" (.str s)]
  | .quoted q s =>
    .obj [field "type" (text "Quoted"), field "quote" (.str [q]), field "content" (.str s),
      field "text" (.str (Value.quoted q s).text)]
  | .unclosed q s =>
    .obj [field "type" (text "IncompleteQuoted"), field "quote" (.str [q]),
      field "content" (.str s), field "text" (.str (Value.unclosed q s).text)]

/-- A run of blanks. -/
def blank (run : List Char) : Json :=
  .obj [field "type" (text "Whitespace"), field "content" (.str run), field "text" (.str run)]

/-- A token. -/
def token : Token → Json
  | .value v => value v
  | .blank run => blank run

/-- An assignment. -/
def assignment (a : Assignment) : Json :=
  .obj [field "type" (text "Pair"), field "key" (.str a.key), field "value" (value a.value),
    field "text" (.str a.text)]

/-- An item in front of a command. -/
def item : Item → Json
  | .blank run => blank run
  | .assignment a => assignment a
  | .dangling key s =>
    .obj [field "type" (text "IncompletePair"), field "key" (.str key), field "text" (.str s)]
  | .stray q s =>
    .obj [field "type" (text "UnexpectedChar"), field "char" (.str [q]), field "text" (.str s)]

/-- A command. -/
def command (c : Command) : Json :=
  .obj [field "vars" (.arr (c.assignments.map assignment)), field "program" (value c.program),
    field "args" (.arr (c.arguments.map value)), field "offset" (.int c.offset),
    field "errors" (.arr (c.errors.map fun e => .str e.message))]

/-- An event. -/
def event (e : Event) : Json :=
  .obj ([field "kind" (.str e.kind)] ++
    (e.char?.toList.map fun c => field "char" (.str [c])) ++
    (e.text?.toList.map fun s => field "text" (.str s)) ++
    [field "modifiers" (.int e.mods.bits), field "key_id" (.str e.keyId)])

/-- Bytes and the event they are. -/
def decoded (data : List UInt8) (e? : Option Event) : Json :=
  .obj [field "hex" (.str (Hex.encode data)), field "event" ((e?.map event).getD .null)]

/-- A line. -/
def line [Typography] (l : Line) : Json :=
  .obj [field "buffer" (.str l.text), field "cursor" (.int l.cursor),
    field "shift" (.int l.shift), field "shift_width" (.int l.shiftWidth),
    field "command" (command l.command)]

end ShellLine.Report
