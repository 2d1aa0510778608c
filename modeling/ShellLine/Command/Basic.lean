import ShellLine.Command.Assignment
import ShellLine.Fields

/-!
# Command/Basic — a whole command line

A command line is assignments, a program and its arguments.  Reading never fails: a quote that is
not closed is noted and the rest is kept, so that a line can be shown while it is being typed.

* `Command.parse` reads a line; `Command.parse?` refuses a line with an unclosed quote.
* `UnclosedQuote.message` is the wording of the only error there is.
-/

namespace ShellLine

/-- Where an unclosed quote stands. -/
inductive QuotePlace
  | anywhere
  | assignment
  | argument
  deriving DecidableEq

/-- The word for a place in an error message. -/
def QuotePlace.word : QuotePlace → String
  | anywhere => "incomplete"
  | assignment => "variable"
  | argument => "argument"

/-- A quote that was opened and never closed, with the text after it. -/
structure UnclosedQuote where
  place : QuotePlace
  quote : Char
  content : List Char
  deriving DecidableEq

/-- The wording of the error. -/
def UnclosedQuote.message (e : UnclosedQuote) : List Char :=
  "unterminated ".toList ++ e.place.word.toList ++ " quote ".toList ++ e.quote :: e.content

/-- The error of a value at a place, if its quote is unclosed. -/
def Value.unclosedAt? (place : QuotePlace) : Value → Option UnclosedQuote
  | unclosed q content => some ⟨place, q, content⟩
  | _ => none

@[simp] theorem Value.isSome_unclosedAt? (place : QuotePlace) (v : Value) :
    (v.unclosedAt? place).isSome = v.isUnclosed := by
  cases v <;> rfl

theorem Value.unclosedAt?_of_not_isUnclosed {v : Value} (h : v.isUnclosed = false)
    (place : QuotePlace) : v.unclosedAt? place = none := by
  rw [← Option.not_isSome_iff_eq_none, isSome_unclosedAt?, h]
  exact Bool.false_ne_true

/-- A command line: assignments, a program, its arguments. `offset` is where the assignments end;
`errors` are the unclosed quotes, in the order they were met. -/
structure Command where
  assignments : List Assignment
  program : Value
  arguments : List Value
  offset : Nat
  errors : List UnclosedQuote
  deriving DecidableEq

/-- What the front of a line holds: its assignments, the text after the last of them, and the
unclosed quote that ended them. -/
structure Leading where
  assignments : List Assignment
  rest : List Char
  error? : Option UnclosedQuote
  deriving DecidableEq

namespace Leading

/-- Put an assignment in front. -/
def cons (a : Assignment) (l : Leading) : Leading := { l with assignments := a :: l.assignments }

/-- Read the assignments of `s`. `kept` is the text after the last assignment so far. -/
def readFrom (kept : List Char) : List Char → Leading
  | [] => ⟨[], kept, none⟩
  | c :: s =>
    match h : Item.read c s with
    | (some (.blank _), rest) =>
      have := Item.length_read h
      readFrom kept rest
    | (some (.assignment a), rest) =>
      have := Item.length_read h
      match a.value.unclosedAt? .assignment with
      | some e => ⟨[], kept, some e⟩
      | none => (readFrom rest rest).cons a
    | (_, _) => ⟨[], kept, none⟩
termination_by s => s.length
decreasing_by all_goals simp only [List.length_cons]; omega

/-- The assignments in front of a line. -/
def read (s : List Char) : Leading := readFrom s s

end Leading

namespace Command

/-- The values of a text, blanks left out. -/
def values (s : List Char) : List Value := (tokenize s).filterMap Token.value?

/-- Read a command line. -/
def parse (s : List Char) : Command :=
  let front := Leading.read s
  let vs := values front.rest
  { assignments := front.assignments
    program := vs.headD (.word [])
    arguments := vs.tail
    offset := s.length - front.rest.length
    errors := front.error?.toList ++ vs.filterMap (Value.unclosedAt? .argument) }

/-- Read a command line in which every quote is closed; otherwise give the first that is not. -/
def parse? (s : List Char) : Except UnclosedQuote Command :=
  match (parse s).errors with
  | [] => .ok (parse s)
  | e :: _ => .error e

/-- Nothing but blanks: no assignment, no program, no argument. -/
def isEmpty (c : Command) : Bool :=
  c.assignments.isEmpty && c.arguments.isEmpty && c.program.content.isEmpty

/-- The environment the assignments make: for each key its last value. -/
def environment (c : Command) : Fields (List Char) :=
  Fields.ofList (c.assignments.map fun a => (a.key, a.value.content))

/-- The program and its arguments without their quotes; empty when there is neither. -/
def words (c : Command) : List (List Char) :=
  if c.program.content.isEmpty && c.arguments.isEmpty then []
  else c.program.content :: c.arguments.map Value.content

end Command

end ShellLine
