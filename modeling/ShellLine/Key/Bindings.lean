import ShellLine.Json.Basic
import ShellLine.Key.Chord

/-!
# Key/Bindings — which keys do what

Every action has keys by default.  A config gives actions other keys; names of actions that are not
known and keys that cannot be read are passed over.  A key bound to several actions does what the
config says first, and otherwise the first action in the order of `Action.all`.

* `Bindings.ofConfig` builds bindings; with a config that cannot be used it gives the keys it had
  set up to then and binds no key to an action.
* `Bindings.configure` gives bindings another config.
* `Bindings.actionFor?` and `Bindings.binds` ask the bindings about an event.
-/

namespace ShellLine

/-- What an editor can do. -/
inductive Action
  | historyUp | historyDown
  | cursorLeft | cursorRight | cursorWordLeft | cursorWordRight | cursorLineStart | cursorLineEnd
  | deleteCharBackward | deleteCharForward | deleteWordBackward | deleteToLineEnd | clearLine
  | submit | exit
  deriving DecidableEq, Inhabited

namespace Action

/-- All actions, in order. -/
def all : List Action :=
  [historyUp, historyDown, cursorLeft, cursorRight, cursorWordLeft, cursorWordRight,
   cursorLineStart, cursorLineEnd, deleteCharBackward, deleteCharForward, deleteWordBackward,
   deleteToLineEnd, clearLine, submit, exit]

/-- The name of an action. -/
def name : Action → List Char
  | historyUp => "historyUp".toList
  | historyDown => "historyDown".toList
  | cursorLeft => "cursorLeft".toList
  | cursorRight => "cursorRight".toList
  | cursorWordLeft => "cursorWordLeft".toList
  | cursorWordRight => "cursorWordRight".toList
  | cursorLineStart => "cursorLineStart".toList
  | cursorLineEnd => "cursorLineEnd".toList
  | deleteCharBackward => "deleteCharBackward".toList
  | deleteCharForward => "deleteCharForward".toList
  | deleteWordBackward => "deleteWordBackward".toList
  | deleteToLineEnd => "deleteToLineEnd".toList
  | clearLine => "clearLine".toList
  | submit => "submit".toList
  | exit => "exit".toList

/-- The action with a name. -/
def ofName? (name : List Char) : Option Action := all.find? fun a => a.name == name

/-- The keys of an action when nothing else is set. -/
def defaultKeys : Action → List (List Char)
  | historyUp => ["up".toList, "ctrl+p".toList]
  | historyDown => ["down".toList, "ctrl+n".toList]
  | cursorLeft => ["left".toList]
  | cursorRight => ["right".toList]
  | cursorWordLeft => ["ctrl+left".toList, "shift+left".toList, "meta+b".toList]
  | cursorWordRight => ["ctrl+right".toList, "shift+right".toList, "meta+f".toList]
  | cursorLineStart => ["home".toList, "ctrl+a".toList]
  | cursorLineEnd => ["end".toList, "ctrl+e".toList]
  | deleteCharBackward => ["backspace".toList]
  | deleteCharForward => ["delete".toList]
  | deleteWordBackward => ["ctrl+w".toList]
  | deleteToLineEnd => ["ctrl+k".toList]
  | clearLine => ["ctrl+c".toList]
  | submit => ["ctrl+m".toList]
  | exit => ["ctrl+d".toList]

theorem mem_all (a : Action) : a ∈ all := by cases a <;> decide

end Action

/-- The keys of each action, and the action of each key, first come first served. -/
structure Bindings where
  keys : Action → List (List Char)
  owners : List (List Char × Action)

/-- Why a config cannot be used: it is no object, or a key of an action is no text. -/
inductive BindingError
  | notAnObject
  | keyNotText (action : Action)
  deriving DecidableEq

namespace Bindings

/-- The canonical spellings of the keys in a list. A key that says nothing or cannot be read is left
out; one that is no text is refused. -/
def readKeys? : List Json → Option (List (List Char))
  | [] => some []
  | .str s :: vs => (readKeys? vs).map ((Chord.normalize? s).toList ++ ·)
  | v :: vs => if v.isVoid then readKeys? vs else none

/-- The keys that a config gives an action: one key, or a list of them. -/
def keysOf? : Json → Option (List (List Char))
  | .arr items => readKeys? items
  | v => readKeys? [v]

/-- Give an action other keys. -/
def setKeys (keys : Action → List (List Char)) (a : Action) (ks : List (List Char)) :
    Action → List (List Char) :=
  fun b => if b = a then ks else keys b

/-- Give the actions of a config their keys, in its order, up to the first that cannot be read. -/
def override (keys : Action → List (List Char)) :
    Fields Json → (Action → List (List Char)) × Option BindingError
  | [] => (keys, none)
  | (name, v) :: fs =>
    match Action.ofName? name with
    | none => override keys fs
    | some a =>
      match keysOf? v with
      | none => (keys, some (.keyNotText a))
      | some ks => override (setKeys keys a ks) fs

/-- The actions in the order in which they claim keys: those of the config first. -/
def claimOrder (config : Fields Json) : List Action :=
  let named := config.keys.filterMap Action.ofName?
  named ++ Action.all.filter fun a => !named.contains a

/-- The keys of some actions, each with its action. -/
def ownersOf (keys : Action → List (List Char)) (order : List Action) : List (List Char × Action) :=
  order.flatMap fun a => (keys a).map fun k => (k, a)

/-- The bindings of a config, and what is wrong with it. -/
def ofConfig (config : Json) : Bindings × Option BindingError :=
  match config.fields? with
  | none => (⟨Action.defaultKeys, []⟩, some .notAnObject)
  | some fields =>
    match override Action.defaultKeys fields with
    | (keys, none) => (⟨keys, ownersOf keys (claimOrder fields)⟩, none)
    | (keys, some e) => (⟨keys, []⟩, some e)

/-- Give bindings another config. They are built anew from it, even where it cannot be used, and
nothing of the old ones is kept. -/
def configure (_ : Bindings) (config : Json) : Bindings × Option BindingError := ofConfig config

/-- The bindings of a config that can be used. -/
def ofConfig? (config : Json) : Except BindingError Bindings :=
  match ofConfig config with
  | (b, none) => .ok b
  | (_, some e) => .error e

/-- The bindings when nothing else is set. -/
def default : Bindings := (ofConfig (.obj [])).1

instance : Inhabited Bindings := ⟨default⟩

/-- The action that an event stands for. -/
def actionFor? (b : Bindings) (e : Event) : Option Action := b.owners.lookup e.keyId

/-- Is the event bound to the action? -/
def binds (b : Bindings) (e : Event) (a : Action) : Bool := (b.keys a).contains e.keyId

/-- The keys of the action with a name; an unknown action has none. -/
def keysNamed (b : Bindings) (name : List Char) : List (List Char) :=
  ((Action.ofName? name).map b.keys).getD []

/-- Is the event bound to the action with a name? -/
def bindsNamed (b : Bindings) (e : Event) (name : List Char) : Bool :=
  (b.keysNamed name).contains e.keyId

end Bindings

end ShellLine
