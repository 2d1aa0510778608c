import ShellLine.Cli.Report
import ShellLine.Cli.Request
import ShellLine.Settings

/-!
# Cli/Perform — doing what the command line asks for

`runRequest` does one request under some settings.  `runPlan` reads the settings of a plan first,
whatever the request is.  A run breaks off where the settings cannot be read, and where what it
found cannot be written.

How texts are measured (`Typography`) and what a console makes of a message (`Console`) is left to
the libraries of the program.
-/

namespace ShellLine

/-- What the library that prints messages leaves of them: it takes out what styles a terminal. -/
class Console where
  unstyled : List Char → List Char

/-- What is printed: a text, or how to use the program. -/
inductive Printed
  | usage
  | text (s : List Char)
  deriving DecidableEq

/-- How a run ends: the exit code, what is printed, and the complaint. -/
structure Ending where
  exit : Nat
  printed : Printed
  complaint : List Char
  deriving DecidableEq

/-- Why a run breaks off: the settings cannot be read, or a number that it found has too many
digits to be written. -/
inductive Breakdown
  | unreadable (e : Unreadable)
  | unwritable
  deriving DecidableEq

namespace Ending

/-- A run that prints a value. -/
def ofJson (v : Json) : Except Breakdown Ending :=
  if v.isWritable then .ok ⟨0, .text (v.pretty ++ ['\n']), []⟩ else .error .unwritable

/-- A run that prints how to use the program. -/
def usage : Ending := ⟨0, .usage, []⟩

/-- A run whose arguments are of no use. -/
def misuse : Ending := ⟨2, .text [], "Error: these arguments cannot be used\n".toList⟩

/-- A run that fails with a message. Nothing in the message may style the terminal. -/
def failure [Console] (message : List Char) : Ending :=
  ⟨1, .text [], Console.unstyled ("Error: ".toList ++ message ++ ['\n'])⟩

end Ending

/-- Where the settings are, below the home of the user and below the project. -/
def settingsPath : List String := [".elysh", "settings.json"]

/-- Move back by a number of words; a negative number is none. -/
def Line.backWords (l : Line) (boundary : Char → Bool) (n : Int) : Line :=
  n.toNat.repeat (fun l => l.backWord boundary) l

/-- Type a text into an empty line, then move the cursor. -/
def typeAndMove (wordChars text : List Char) (cursor? : Option Int) (wordsLeft : Int) : Line :=
  let typed := Line.empty.insertText text
  let placed := match cursor? with
    | some n => typed.toStart.forward n
    | none => typed
  placed.backWords wordChars.contains wordsLeft

/-- Bytes in base sixteen and the events they are. -/
def decodeAll (sequences : List (List Char)) : Except Breakdown Ending :=
  match sequences.mapM Hex.decode? with
  | some ss => Ending.ofJson (.arr (ss.map fun data => Report.decoded data (decode data)))
  | none => .ok .misuse

variable [Typography] [Console]

/-- Do a request under some settings. -/
def runRequest (s : Settings) : Request → Except Breakdown Ending
  | .tokens line => Ending.ofJson (.arr ((tokenize line).map Report.token))
  | .assignments line => Ending.ofJson (.arr ((assignmentItems line).map Report.item))
  | .parse line false => Ending.ofJson (Report.command (Command.parse line))
  | .parse line true =>
    match Command.parse? line with
    | .ok c => Ending.ofJson (Report.command c)
    | .error e => .ok (.failure e.message)
  | .decode sequences => decodeAll sequences
  | .edit text cursor? wordsLeft =>
    match s.wordChars? with
    | .error e => .ok (.failure e.message)
    | .ok wordChars => Ending.ofJson (Report.line (typeAndMove wordChars text cursor? wordsLeft))

/-- Carry out a plan, where `user` and `project` are the settings files it finds. -/
def runPlan (user project : FileContent) (plan : Plan) : Except Breakdown Ending :=
  match Settings.load? user project with
  | .error e => .error (.unreadable e)
  | .ok s =>
    match plan.request? with
    | none => .ok .usage
    | some .misuse => .ok .misuse
    | some .help => .ok .usage
    | some (.done request) => runRequest s request

end ShellLine
