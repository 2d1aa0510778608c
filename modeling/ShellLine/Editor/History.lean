import ShellLine.Text.Position

/-!
# Editor/History — the lines that were entered, and where one is among them

Entered lines are kept, newest first, up to a limit.  A position walks over them: zero is the line
that is being typed, `n` the `n`-th newest entry.  The walk stops at both ends.
-/

namespace ShellLine

/-- Entered lines, newest first, and the place of the one that is recalled. -/
structure History where
  entries : List (List Char)
  position : Nat
  limit? : Option Int
  deriving DecidableEq

namespace History

/-- A history without entries. -/
def empty (limit? : Option Int) : History := ⟨[], 0, limit?⟩

/-- Go back to the line that is being typed. -/
def reset (h : History) : History := { h with position := 0 }

/-- The entries that stay under a limit; a negative limit counts from the oldest. -/
def trim (limit? : Option Int) (entries : List (List Char)) : List (List Char) :=
  match limit? with
  | none => entries
  | some m => if m < entries.length then entries.take (cut entries.length m) else entries

/-- Enter a line. The empty line is not kept. -/
def push (h : History) (line : List Char) : History :=
  if line.isEmpty then h else ⟨trim h.limit? (line :: h.entries), 0, h.limit?⟩

/-- The entry that is recalled. -/
def current? (h : History) : Option (List Char) :=
  if h.position = 0 then none else h.entries[h.position - 1]?

/-- Step to the next older entry. -/
def older (h : History) : History :=
  { h with position := min (h.position + 1) h.entries.length }

/-- Step to the next newer entry, and from the newest to the line that is being typed. -/
def newer (h : History) : History := { h with position := h.position - 1 }

end History

end ShellLine
