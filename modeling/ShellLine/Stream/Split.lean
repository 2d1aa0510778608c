import ShellLine.Key.Decode

/-!
# Stream/Split — where one key ends in a stream of bytes

Bytes come from a terminal without marks between keys.  A key is a byte, the bytes of one character,
or an escape sequence; the first byte, and for a sequence its shape, says where it ends.

* `sequenceStatus` says whether some bytes are a whole escape sequence.
* `splitKeys` cuts a stream into keys and what is too short to be one yet; `flatten_splitKeys` says
  that this loses nothing.
-/

namespace ShellLine

/-- Whether bytes are a whole escape sequence. -/
inductive SequenceStatus
  | notEscape
  | incomplete
  | complete
  deriving DecidableEq

namespace SequenceStatus

/-- Complete or incomplete. -/
def ofBool (whole : Bool) : SequenceStatus := if whole then complete else incomplete

end SequenceStatus

/-- Is the byte a digit? -/
def isDigitByte (b : UInt8) : Bool := 0x30 ≤ b && b ≤ 0x39

/-- What follows a number, if the bytes begin with one. -/
def afterNumber? (s : List UInt8) : Option (List UInt8) :=
  if s.takeWhile isDigitByte = [] then none else some (s.dropWhile isDigitByte)

/-- Are the bytes the report of a mouse: `<`, three numbers with semicolons between them, and `M`
or `m`? -/
def isMouseReport : List UInt8 → Bool
  | 0x3c :: s =>
    match afterNumber? s with
    | some (0x3b :: s) =>
      match afterNumber? s with
      | some (0x3b :: s) =>
        match afterNumber? s with
        | some [b] => b == 0x4d || b == 0x6d
        | _ => false
      | _ => false
    | _ => false
  | _ => false

/-- Do the bytes after escape and `[` make a whole sequence? It ends with a byte from `@` to `~`;
one that begins with `<` has to be a report of the mouse. -/
def isControlSequence (s : List UInt8) : Bool :=
  match s.getLast? with
  | some b => 0x40 ≤ b && b ≤ 0x7e && (s.head? != some 0x3c || isMouseReport s)
  | none => false

/-- Do the bytes end with escape and a backslash, or, where it may end a sequence, with the bell? -/
def isTerminated (bell : Bool) (data : List UInt8) : Bool :=
  [0x1b, 0x5c].isSuffixOf data || (bell && data.getLast? == some 0x07)

/-- Whether the bytes after escape, of which `b` is the first, make a whole sequence. -/
def isWholeAfterEscape (b : UInt8) (s : List UInt8) : Bool :=
  if b = 0x5b then
    if s.head? = some 0x4d then 4 ≤ s.length else isControlSequence s
  else if b = 0x5d then isTerminated true (b :: s)
  else if b = 0x50 ∨ b = 0x5f then isTerminated false (b :: s)
  else if b = 0x4f then !s.isEmpty
  else Utf8.length b ≤ s.length + 1

/-- Are the bytes an escape sequence, and a whole one? -/
def sequenceStatus : List UInt8 → SequenceStatus
  | [] => .notEscape
  | e :: s =>
    if e = escByte then
      match s with
      | [] => .incomplete
      | b :: s => .ofBool (isWholeAfterEscape b s)
    else .notEscape

/-- The length of the first key of some bytes: of an escape sequence the shortest whole one, of a
character as many bytes as its first byte asks for. There is none while bytes are missing. -/
def keyLength? (e : UInt8) (s : List UInt8) : Option Nat :=
  if e = escByte then
    ((List.range (s.length + 1)).find? fun n =>
      sequenceStatus (e :: s.take n) != .incomplete).map (· + 1)
  else if Utf8.length e ≤ s.length + 1 then some (Utf8.length e)
  else none

theorem Utf8.length_pos (lead : UInt8) : 0 < Utf8.length lead := by
  unfold Utf8.length
  repeat' split
  all_goals decide

theorem keyLength?_pos {e : UInt8} {s : List UInt8} {n : Nat} (h : keyLength? e s = some n) :
    0 < n := by
  unfold keyLength? at h
  split at h
  · simp only [Option.map_eq_some_iff] at h
    obtain ⟨m, -, rfl⟩ := h
    exact Nat.succ_pos m
  · split at h
    · simp only [Option.some.injEq] at h
      exact h ▸ Utf8.length_pos e
    · simp at h

/-- The keys of a stream, and the bytes at its end that are too few to be one. -/
def splitKeys : List UInt8 → List (List UInt8) × List UInt8
  | [] => ([], [])
  | e :: s =>
    match h : keyLength? e s with
    | none => ([], e :: s)
    | some n =>
      have := keyLength?_pos h
      let r := splitKeys ((e :: s).drop n)
      ((e :: s).take n :: r.1, r.2)
termination_by data => data.length
decreasing_by simp only [List.length_drop, List.length_cons]; omega

/-- **Splitting loses nothing.** -/
theorem flatten_splitKeys (data : List UInt8) :
    (splitKeys data).1.flatten ++ (splitKeys data).2 = data := by
  fun_induction splitKeys data with
  | case1 => rfl
  | case2 => rfl
  | case3 e s n h _ r ih => simp [r, ih]

end ShellLine
