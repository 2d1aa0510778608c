import ShellLine.Lex.Token

/-!
# Command/Assignment — the assignments in front of a command

A command line may begin with assignments, `KEY=value`, with blanks around them.  The first thing
that is no assignment ends them: a bare word is left for the command, while a key without a value
and a quote where a key should stand are reported and nothing more is read.

* `Item.read` reads one item off the front of a text, and `text_read` says that the text of the
  item is what was read.
* `AssignmentStream` reads one item at a time and remembers where it is; `assignmentItems` collects
  all items of a line.
-/

namespace ShellLine

/-- A key and the value it is given. -/
structure Assignment where
  key : List Char
  value : Value
  deriving DecidableEq, Inhabited

/-- The text an assignment was read from. -/
def Assignment.text (a : Assignment) : List Char := a.key ++ '=' :: a.value.text

/-- What stands in front of a command: blanks, assignments, a key without a value, a quote where a
key should stand. The last two hold the text that was read. -/
inductive Item
  | blank (run : List Char)
  | assignment (a : Assignment)
  | dangling (key text : List Char)
  | stray (quote : Char) (text : List Char)
  deriving DecidableEq, Inhabited

namespace Item

/-- The text the item was read from. -/
def text : Item → List Char
  | blank run => run
  | assignment a => a.text
  | dangling _ text => text
  | stray _ text => text

/-- Does the item lack something: a value, or the closing quote of its value? -/
def isIncomplete : Item → Bool
  | assignment a => a.value.isUnclosed
  | dangling _ _ => true
  | _ => false

/-- Is the item a run of blanks? -/
def isBlankRun : Item → Bool
  | blank _ => true
  | _ => false

/-- Does the item end the reading as an error? -/
def isError : Item → Bool
  | dangling _ _ => true
  | stray _ _ => true
  | _ => false

/-- Read what follows the key `key`, which is not the end of the text. -/
def readAfterKey (key : List Char) : List Char → Option Item × List Char
  | [] => (none, [])
  | ['='] => (some (dangling key (key ++ ['='])), [])
  | '=' :: d :: s =>
    if isBlank d then (some (dangling key (key ++ ['=', d])), s)
    else (some (assignment ⟨key, (Value.read d s).1⟩), (Value.read d s).2)
  | d :: s =>
    if isBlank d then (some (dangling key key), d :: s)
    else (some (stray d (key ++ [d])), s)

/-- Read the item that begins with `c`, where `s` follows `c`, and give what is left. There is none
when the rest of the text is one bare word; that word is passed over. -/
def read (c : Char) (s : List Char) : Option Item × List Char :=
  if isQuote c then (some (stray c [c]), s)
  else if isBlank c then (some (blank (c :: s.takeWhile isBlank)), s.dropWhile isBlank)
  else readAfterKey (c :: s.takeWhile fun d => !endsKey d) (s.dropWhile fun d => !endsKey d)

theorem text_readAfterKey {key s rest : List Char} {i : Item}
    (h : readAfterKey key s = (some i, rest)) : i.text ++ rest = key ++ s := by
  unfold readAfterKey at h
  split at h
  · simp at h
  · simp only [Prod.mk.injEq, Option.some.injEq] at h
    simp [← h.1, ← h.2, text]
  · split at h
    · simp only [Prod.mk.injEq, Option.some.injEq] at h
      simp [← h.1, ← h.2, text]
    · simp only [Prod.mk.injEq, Option.some.injEq] at h
      simp [← h.1, ← h.2, text, Assignment.text, Value.text_read]
  · split at h
    · simp only [Prod.mk.injEq, Option.some.injEq] at h
      simp [← h.1, ← h.2, text]
    · simp only [Prod.mk.injEq, Option.some.injEq] at h
      simp [← h.1, ← h.2, text]

/-- Reading an item loses nothing. -/
theorem text_read {c : Char} {s rest : List Char} {i : Item} (h : read c s = (some i, rest)) :
    i.text ++ rest = c :: s := by
  unfold read at h
  split at h
  · simp only [Prod.mk.injEq, Option.some.injEq] at h
    simp [← h.1, ← h.2, text]
  · split at h
    · simp only [Prod.mk.injEq, Option.some.injEq] at h
      simp [← h.1, ← h.2, text]
    · simpa using text_readAfterKey h

theorem text_ne_nil_of_readAfterKey {key s rest : List Char} {i : Item} (hk : key ≠ [])
    (h : readAfterKey key s = (some i, rest)) : i.text ≠ [] := by
  unfold readAfterKey at h
  split at h
  · simp at h
  · simp only [Prod.mk.injEq, Option.some.injEq] at h
    simp [← h.1, text]
  · split at h <;> simp only [Prod.mk.injEq, Option.some.injEq] at h <;>
      simp [← h.1, text, Assignment.text]
  · split at h <;> simp only [Prod.mk.injEq, Option.some.injEq] at h <;> simp [← h.1, text, hk]

theorem text_ne_nil_of_read {c : Char} {s rest : List Char} {i : Item}
    (h : read c s = (some i, rest)) : i.text ≠ [] := by
  unfold read at h
  split at h
  · simp only [Prod.mk.injEq, Option.some.injEq] at h
    simp [← h.1, text]
  · split at h
    · simp only [Prod.mk.injEq, Option.some.injEq] at h
      simp [← h.1, text]
    · exact text_ne_nil_of_readAfterKey (by simp) h

theorem length_read {c : Char} {s rest : List Char} {i : Item} (h : read c s = (some i, rest)) :
    rest.length ≤ s.length := by
  have h1 := congrArg List.length (text_read h)
  have h2 := List.length_pos_iff.2 (text_ne_nil_of_read h)
  simp only [List.length_append, List.length_cons] at h1
  omega

end Item

/-! ## One item at a time -/

/-- A place among the assignments of a line: what is left to read, and whether an error has ended
the reading. -/
structure AssignmentStream where
  source : List Char
  rest : List Char
  failed : Bool
  deriving DecidableEq

namespace AssignmentStream

/-- The stream at the start of a line. -/
def ofText (s : List Char) : AssignmentStream := ⟨s, s, false⟩

/-- How many characters have been read. -/
def offset (st : AssignmentStream) : Nat := st.source.length - st.rest.length

/-- The next item. There is none after an error, at the end, and when a bare word is all that is
left; the bare word is passed over. -/
def next (st : AssignmentStream) : Option Item × AssignmentStream :=
  match st.failed, st.rest with
  | true, _ => (none, st)
  | false, [] => (none, st)
  | false, c :: s =>
    let (item, rest) := Item.read c s
    (item, ⟨st.source, rest, item.any Item.isError⟩)

end AssignmentStream

/-- All items in front of a command. -/
def assignmentItems : List Char → List Item
  | [] => []
  | c :: s =>
    match h : Item.read c s with
    | (none, _) => []
    | (some item, rest) =>
      have := Item.length_read h
      if item.isError then [item] else item :: assignmentItems rest
termination_by s => s.length
decreasing_by simp only [List.length_cons]; omega

end ShellLine
