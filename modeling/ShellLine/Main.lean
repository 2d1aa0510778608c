import ShellLine.Cli.Run

/-!
# Main — the program

Reads the arguments and the settings files, carries out the plan, and prints what comes of it.
-/

namespace ShellLine.Main

/-- How the program is used. -/
def usage : String :=
  "Usage: shell-line [--log-level LEVEL] [--cwd DIRECTORY] COMMAND [ARGUMENT]...\n\n" ++
  "  tokens LINE                              split a line into tokens\n" ++
  "  vars LINE                                split the assignments in front of a command\n" ++
  "  parse LINE [--strict]                    read a command line\n" ++
  "  decode SEQUENCE...                       say what keys some bytes are\n" ++
  "  edit TEXT [--cursor N] [--word-left N]   type a text and move the cursor\n"

/-- The code of the system for a path that leads through something that is no directory. -/
def notDirectoryCode : UInt32 := 20

/-- Look at the file with a path. -/
def readFile (path : String) : IO FileContent := do
  try
    return .bytes (← IO.FS.readBinFile path).toList
  catch
    | .noFileOrDirectory .. => return .missing
    | .inappropriateType _ code _ =>
      return if code = notDirectoryCode then .missing else .directory
    | _ => return .directory

/-- The path of the settings in a directory. -/
def settingsIn (directory : String) : String :=
  directory ++ "/" ++ "/".intercalate settingsPath

/-- The directory of the project: the one that is named, or that of the process. -/
def projectDirectory (directory? : Option (List Char)) : String :=
  match directory? with
  | some (c :: s) => String.ofList (c :: s)
  | _ => "."

/-- Print what a run gives and end with its code. -/
def finish (e : Ending) : IO UInt32 := do
  match e.printed with
  | .usage => IO.print usage
  | .text s => IO.print (String.ofList s)
  IO.eprint (String.ofList e.complaint)
  return e.exit.toUInt32

/-- What is printed when a run breaks off. -/
def complaint : Breakdown → String
  | .unreadable .invalidUtf8 => "a settings file is not UTF-8"
  | .unreadable (.tooManyDigits n) => "a number in a settings file has " ++ toString n ++ " digits"
  | .unwritable => "a number has too many digits to be written"

/-- Run the program on its arguments. -/
def runAndPrint (args : List (List Char)) : IO UInt32 := do
  let user := do readFile (settingsIn ((← IO.getEnv "HOME").getD ""))
  let project (directory? : Option (List Char)) := readFile (settingsIn (projectDirectory directory?))
  match ← run user project args with
  | .ok e => finish e
  | .error e => finish (.failure (complaint e).toList)

end ShellLine.Main

/-- The program. -/
def main (args : List String) : IO UInt32 :=
  ShellLine.Main.runAndPrint (args.map String.toList)
