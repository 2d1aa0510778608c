import ShellLine.Cli.Request
import ShellLine.Number.Integer

/-!
# Cli/Arguments — reading the arguments of the command line

The arguments name a request, with options in front of its name and options of its own after it.
An option takes its value from the same argument, after an equals sign, or from the next one,
whatever that is; of an option that is given twice the last value counts.  Two hyphens end the
options.  This is how a program here reads its arguments; what is proved of runs holds of any plan.

* `Arguments.split?` tells options from other arguments.
* `Plan.read` reads all arguments: it refuses them, asks for the help, or gives a directory and what
  to do there.
-/

namespace ShellLine

/-- What an option needs. -/
inductive OptionKind
  | flag
  | value
  deriving DecidableEq

/-- Arguments that cannot be used. -/
inductive Misuse
  | misused
  deriving DecidableEq

/-- Arguments, options told from others. An option without a value has none. -/
structure Arguments where
  options : List (List Char × Option (List Char))
  others : List (List Char)
  deriving DecidableEq

namespace Arguments

/-- Add an option in front. -/
def addOption (name : List Char) (value? : Option (List Char)) (a : Arguments) : Arguments :=
  { a with options := (name, value?) :: a.options }

/-- Add another argument in front. -/
def addOther (arg : List Char) (a : Arguments) : Arguments := { a with others := arg :: a.others }

/-- Does the argument look like an option: a hyphen and something after it? -/
def isOptionLike : List Char → Bool
  | '-' :: _ :: _ => true
  | _ => false

/-- The name of an option, and the value after an equals sign. -/
def nameAndValue (arg : List Char) : List Char × Option (List Char) :=
  (arg.takeWhile (· != '='), (arg.dropWhile (· != '=')).tail? )

/-- Tell options from other arguments. Unless options may be mixed with others, they end at the
first argument that is none. -/
def split? (known : List (List Char × OptionKind)) (mixed : Bool) :
    List (List Char) → Except Misuse Arguments
  | [] => .ok ⟨[], []⟩
  | arg :: args =>
    if arg = ['-', '-'] then .ok ⟨[], args⟩
    else if isOptionLike arg then
      let (name, value?) := nameAndValue arg
      match known.lookup name, value? with
      | some .flag, none => (split? known mixed args).map (addOption name none)
      | some .value, some v => (split? known mixed args).map (addOption name (some v))
      | some .value, none =>
        match args with
        | [] => .error .misused
        | v :: args => (split? known mixed args).map (addOption name (some v))
      | _, _ => .error .misused
    else if mixed then (split? known mixed args).map (addOther arg)
    else .ok ⟨[], arg :: args⟩

/-- Is the option given? -/
def has (a : Arguments) (name : String) : Bool := a.options.any fun o => o.1 == name.toList

/-- The last value of an option. -/
def last? (a : Arguments) (name : String) : Option (List Char) :=
  (a.options.reverse.find? fun o => o.1 == name.toList).bind Prod.snd

/-- The only argument that is no option. -/
def only? (a : Arguments) : Except Misuse (List Char) :=
  match a.others with
  | [s] => .ok s
  | _ => .error .misused

/-- The whole number an option gives. -/
def integer? (a : Arguments) (name : String) : Except Misuse (Option Int) :=
  match a.last? name with
  | none => .ok none
  | some s =>
    match Integer.parse? s with
    | some n => .ok (some n)
    | none => .error .misused

end Arguments

namespace Answer

/-- Arguments that cannot be used are misuse. -/
def ofExcept {α : Type} : Except Misuse α → Answer α
  | .ok a => done a
  | .error _ => misuse

end Answer

/-- The option that asks for help. -/
def helpOption : List Char × OptionKind := ("--help".toList, .flag)

namespace Request

/-- The names of the requests. -/
inductive Name
  | tokens | assignments | parse | decode | edit
  deriving DecidableEq

/-- The request with a name. -/
def Name.ofText? (s : List Char) : Option Name :=
  if s = "tokens".toList then some tokens
  else if s = "vars".toList then some assignments
  else if s = "parse".toList then some parse
  else if s = "decode".toList then some decode
  else if s = "edit".toList then some edit
  else none

/-- The options of a request. -/
def Name.options : Name → List (List Char × OptionKind)
  | parse => [("--strict".toList, .flag), helpOption]
  | edit => [("--cursor".toList, .value), ("--word-left".toList, .value), helpOption]
  | _ => [helpOption]

/-- Texts, at least one of them. -/
def sequences? (args : List (List Char)) : Except Misuse (List (List Char)) :=
  if args = [] then .error .misused else .ok args

/-- The request that split arguments give. -/
def ofArguments? (name : Name) (a : Arguments) : Except Misuse Request :=
  match name with
  | .tokens => a.only?.map .tokens
  | .assignments => a.only?.map .assignments
  | .parse => a.only?.map fun line => .parse line (a.has "--strict")
  | .decode => (sequences? a.others).map .decode
  | .edit => do
    let text ← a.only?
    let cursor? ← a.integer? "--cursor"
    let wordsLeft? ← a.integer? "--word-left"
    return .edit text cursor? (wordsLeft?.getD 0)

/-- Read the arguments after the name of a request. -/
def read (name : Name) (args : List (List Char)) : Answer Request :=
  match Arguments.split? name.options true args with
  | .error _ => .misuse
  | .ok a => if a.has "--help" then .help else .ofExcept (ofArguments? name a)

end Request

namespace Plan

/-- The options in front of the name of a request. -/
def options : List (List Char × OptionKind) :=
  [("--log-level".toList, .value), ("--cwd".toList, .value), helpOption]

/-- The levels of the log. -/
def logLevels : List (List Char) :=
  ["DEBUG".toList, "INFO".toList, "WARNING".toList, "ERROR".toList]

/-- Is the text a level of the log, in either letter case? -/
def isLogLevel (s : List Char) : Bool := logLevels.contains (s.map Char.toUpper)

/-- What follows an unknown name. One that looks like an option, which it can only do after two
hyphens, is read as one more option, so that it may still ask for help. -/
def readUnknown (args : List (List Char)) : Answer Plan :=
  match Arguments.split? options false args with
  | .ok a => if a.has "--help" then .help else .misuse
  | .error _ => .misuse

/-- Read the name of the request. -/
def ofOthers (directory? : Option (List Char)) : List (List Char) → Answer Plan
  | [] => .done ⟨directory?, none⟩
  | name :: args =>
    match Request.Name.ofText? name with
    | some name => .done ⟨directory?, some (Request.read name args)⟩
    | none => readUnknown (name :: args)

/-- Read all arguments. -/
def read (args : List (List Char)) : Answer Plan :=
  match Arguments.split? options false args with
  | .error _ => .misuse
  | .ok a =>
    if a.has "--help" then .help
    else if (a.last? "--log-level").all isLogLevel then ofOthers (a.last? "--cwd") a.others
    else .misuse

end Plan

end ShellLine
