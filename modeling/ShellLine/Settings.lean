import ShellLine.Editor.Basic
import ShellLine.Json.Merge
import ShellLine.Json.Parse
import ShellLine.Json.Render

/-!
# Settings — what a user has set, from files and overrides

Settings are an object of JSON.  They come from two files, that of the user and that of the project,
the second over the first, or from memory; overrides go on top until the files are read again.  A
file that is missing or of no use counts as empty, and for the file of the user the reason is kept;
a file that is no text at all, or that holds a number with too many digits, stops the reading.

* `Settings.load`, `Settings.reload` and `Settings.override` make and change settings.
* `Settings.wordChars?`, `Settings.historySize?` and `Settings.keyConfig?` read single settings;
  `Settings.buildEditor?` builds an editor from all of them.
-/

namespace ShellLine

/-- What stands where a settings file is looked for. -/
inductive FileContent
  | missing
  | directory
  | bytes (data : List UInt8)
  deriving DecidableEq

/-- Why a settings file is of no use. -/
inductive LoadError
  | isDirectory
  | notJson
  | notObject
  deriving DecidableEq

/-- Why a settings file stops the reading: it is not UTF-8, or a whole number in it has so many
digits. -/
inductive Unreadable
  | invalidUtf8
  | tooManyDigits (count : Nat)
  deriving DecidableEq

/-- A setting that cannot be used. -/
inductive SettingsError
  | wordChars (value : Json)
  | keybindings (value : Json)
  | historySize (value : Json)
  | binding (e : BindingError)

/-- The wording of the error. -/
def SettingsError.message : SettingsError → List Char
  | wordChars v => "wordChars must be a string or a list of characters, got ".toList ++ v.shown
  | keybindings v => "keybindings must be an object, got ".toList ++ v.shown
  | historySize v => "historySize must be a non-negative integer, got ".toList ++ v.shown
  | binding .notAnObject => "keybindings must be an object".toList
  | binding (.keyNotText a) => "the keys of ".toList ++ a.name ++ " must be texts".toList

/-- Settings: those of the user, all of them together, and why the file of the user was of no use.
`fromFiles` says whether files are read at all. -/
structure Settings where
  fromFiles : Bool
  user : Fields Json
  all : Fields Json
  loadError? : Option LoadError

namespace Settings

/-- The settings a file holds, and why it is of no use. -/
def readFile? : FileContent → Except Unreadable (Fields Json × Option LoadError)
  | .missing => .ok ([], none)
  | .directory => .ok ([], some .isDirectory)
  | .bytes data =>
    match Utf8.decode? data with
    | none => .error .invalidUtf8
    | some text =>
      match Json.parse text with
      | .error .malformed => .ok ([], some .notJson)
      | .error (.tooManyDigits n) => .error (.tooManyDigits n)
      | .ok (.obj fields) => .ok (fields, none)
      | .ok _ => .ok ([], some .notObject)

/-- Read the settings of the project. -/
def projectSettings? (s : Settings) (project : FileContent) : Except Unreadable (Fields Json) :=
  if s.fromFiles then (readFile? project).map Prod.fst else .ok []

/-- Put the settings of the project over those of the user. -/
def mergeProject? (s : Settings) (project : FileContent) : Except Unreadable Settings :=
  (s.projectSettings? project).map fun fields => { s with all := Json.mergeFields s.user fields }

/-- Read the file of the user again. -/
def reloadUser? (s : Settings) (user : FileContent) : Except Unreadable Settings :=
  if s.fromFiles then
    (readFile? user).map fun r => { s with user := r.1, loadError? := r.2 }
  else .ok s

/-- Read both files again, which drops the overrides. When a file cannot be read the reading stops
there, and what was read before it is kept. -/
def reload (s : Settings) (user project : FileContent) : Settings × Option Unreadable :=
  match s.reloadUser? user with
  | .error e => (s, some e)
  | .ok s =>
    match s.mergeProject? project with
    | .error e => (s, some e)
    | .ok s => (s, none)

/-- The settings of two files. -/
def load? (user project : FileContent) : Except Unreadable Settings :=
  match reload ⟨true, [], [], none⟩ user project with
  | (s, none) => .ok s
  | (_, some e) => .error e

/-- Settings that stand in no file. -/
def ofFields (fields : Fields Json) : Settings := ⟨false, fields, fields, none⟩

/-- Put overrides over all settings. -/
def override (s : Settings) (fields : Fields Json) : Settings :=
  { s with all := Json.mergeFields s.all fields }

/-! ## Single settings -/

/-- The value of a setting, null when it is missing. -/
def value (s : Settings) (name : String) : Json := (s.all.get? name.toList).getD .null

/-- The characters in a list of texts of one character each. -/
def chars? : List Json → Option (List Char)
  | [] => some []
  | .str [c] :: vs => (chars? vs).map (c :: ·)
  | _ => none

/-- The boundaries of words: a text or a list of characters. -/
def wordChars? (s : Settings) : Except SettingsError (List Char) :=
  match s.value "wordChars" with
  | .null => .ok defaultWordChars
  | .str cs => .ok cs
  | .arr items =>
    match chars? items with
    | some cs => .ok cs
    | none => .error (.wordChars (.arr items))
  | v => .error (.wordChars v)

/-- The number of lines that are remembered when nothing else is set. -/
def defaultHistorySize : Int := 1000

/-- How many lines are remembered: a whole number that is not negative. -/
def historySize? (s : Settings) : Except SettingsError Int :=
  match s.value "historySize" with
  | .null => .ok defaultHistorySize
  | .int n => if n < 0 then .error (.historySize (.int n)) else .ok n
  | v => .error (.historySize v)

/-- The config of the key bindings: an object. -/
def keyConfig? (s : Settings) : Except SettingsError (Fields Json) :=
  match s.value "keybindings" with
  | .null => .ok []
  | .obj fields => .ok fields
  | v => .error (.keybindings v)

/-- The editor these settings describe. -/
def buildEditor? (s : Settings) : Except SettingsError Editor := do
  let wordChars ← s.wordChars?
  let size ← s.historySize?
  let config ← s.keyConfig?
  match Bindings.ofConfig? (.obj config) with
  | .error e => .error (.binding e)
  | .ok bindings => .ok (.fresh wordChars (.empty (some size)) (some bindings))

end Settings

end ShellLine
