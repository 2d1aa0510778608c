import Mathlib.Data.List.DropRight
import Mathlib.Data.List.Induction
import Mathlib.Data.List.Infix
import ShellLine.Proofs.Line.Between

/-!
# Proofs/Line/Zipper — a line without positions

A zipper is the two texts on both sides of a cursor.  Its operations move characters from one text
to the other, or add and drop some at the place where the two meet; none of them counts.  A line
does the same by arithmetic on one text and a position, and `sides_applyAll_ofText` says that the
two never differ.

The engine is one square for each operation (`apply_toLine`).  For motion by words it needs that a
search from the cursor finds the longest or the shortest beginning of a text that ends with a
boundary (`getLast?_filter_inits`, `find?_tail_inits`).
-/

namespace ShellLine

/-- The texts on both sides of a cursor. -/
structure Zipper where
  left : List Char
  right : List Char
  deriving DecidableEq

namespace Zipper

/-! ## Operations -/

/-- Does the text end with a character for which `p` holds? -/
def endsWith (p : Char → Bool) (s : List Char) : Bool := s.getLast?.any p

/-- May going back by a word stop behind the text: is it empty, or does it end with a boundary? -/
def isStop (boundary : Char → Bool) (s : List Char) : Bool := s.isEmpty || endsWith boundary s

/-- The last `n` characters on the left go to the right. -/
def back (z : Zipper) (n : Nat) : Zipper := ⟨z.left.rdrop n, z.left.rtake n ++ z.right⟩

/-- The first `n` characters on the right go to the left. -/
def forward (z : Zipper) (n : Nat) : Zipper := ⟨z.left ++ z.right.take n, z.right.drop n⟩

/-- All goes to the right. -/
def toStart (z : Zipper) : Zipper := ⟨[], z.left ++ z.right⟩

/-- All goes to the left. -/
def toEnd (z : Zipper) : Zipper := ⟨z.left ++ z.right, []⟩

/-- What stays on the left is the longest beginning of it, but not all of it, that is empty or ends
with a boundary. -/
def backWord (z : Zipper) (boundary : Char → Bool) : Zipper :=
  let kept := (z.left.inits.dropLast.filter (isStop boundary)).getLast?.getD []
  ⟨kept, z.left.drop kept.length ++ z.right⟩

/-- What goes to the left is the shortest beginning of the right that has two characters at least
and ends with a boundary, or all of the right. -/
def forwardWord (z : Zipper) (boundary : Char → Bool) : Zipper :=
  let moved := ((z.right.inits.drop 2).find? (endsWith boundary)).getD z.right
  ⟨z.left ++ moved, z.right.drop moved.length⟩

/-- A quote that closes the last value on the left takes the place of the same quote on the right;
a blank beside a run of blanks is dropped; any other character goes to the left. -/
def insert (z : Zipper) (c : Char) : Zipper :=
  if isQuote c then
    if (lastToken? z.left).bind Token.quote? == some c && z.right.head? == some c then
      ⟨z.left ++ [c], z.right.tail⟩
    else ⟨z.left ++ [c], z.right⟩
  else if isBlank c &&
      ((lastToken? z.left).any Token.isBlankRun || (firstToken? z.right).any Token.isBlankRun) then
    z
  else ⟨z.left ++ [c], z.right⟩

/-- The last character on the left goes, and with it the first on the right if the two are quotes of
a kind. -/
def remove (z : Zipper) : Zipper :=
  match z.left.getLast?, z.right with
  | some a, b :: right =>
    if a = b ∧ isQuote b then ⟨z.left.dropLast, right⟩ else ⟨z.left.dropLast, b :: right⟩
  | _, right => ⟨z.left.dropLast, right⟩

/-- The first character on the right goes. -/
def removeNext (z : Zipper) : Zipper := ⟨z.left, z.right.tail⟩

/-- All on the right goes. -/
def removeEnd (z : Zipper) : Zipper := ⟨z.left, []⟩

/-- What an operation does. -/
def apply (z : Zipper) : Line.Op → Zipper
  | .back n => z.back n
  | .forward n => z.forward n
  | .toStart => z.toStart
  | .toEnd => z.toEnd
  | .backWord boundary => z.backWord boundary
  | .forwardWord boundary => z.forwardWord boundary
  | .insert c => z.insert c
  | .remove => z.remove
  | .removeNext => z.removeNext
  | .removeWord boundary => (z.backWord boundary).removeEnd
  | .removeEnd => z.removeEnd
  | .clearEnd => z.removeEnd
  | .clear => ⟨[], []⟩

/-- Apply operations one after the other. -/
def applyAll (z : Zipper) (ops : List Line.Op) : Zipper := ops.foldl apply z

/-! ## Stops of words

`lastStop` and `findIdx?` count how far a search from the cursor gets; here the text that they find
is one among all beginnings of a text. -/

variable {boundary : Char → Bool}

theorem endsWith_concat (p : Char → Bool) (s : List Char) (c : Char) :
    endsWith p (s ++ [c]) = p c := by
  rw [endsWith, List.getLast?_concat, Option.any_some]

theorem endsWith_cons (p : Char → Bool) (c : Char) {s : List Char} (hs : s ≠ []) :
    endsWith p (c :: s) = endsWith p s := by
  rw [endsWith, endsWith, List.getLast?_cons, List.getLast?_eq_getLast_of_ne_nil hs]
  rfl

theorem inits_concat (s : List Char) (c : Char) : (s ++ [c]).inits = s.inits ++ [s ++ [c]] := by
  rw [List.inits_append]
  rfl

/-- **The longest beginning of a text that is empty or ends with a boundary.** -/
theorem getLast?_filter_inits (s : List Char) :
    (s.inits.filter (isStop boundary)).getLast? = some (s.take (Line.lastStop boundary s)) := by
  induction s using List.reverseRecOn with
  | nil => rfl
  | append_singleton s c ih =>
    have hstop : isStop boundary (s ++ [c]) = boundary c := by
      rw [isStop, endsWith_concat]
      simp
    rw [inits_concat, List.filter_append, List.filter_singleton, hstop, Line.lastStop_concat]
    cases boundary c with
    | true =>
      rw [cond_true, List.getLast?_concat, if_pos rfl, List.take_of_length_le]
      rw [List.length_append, List.length_singleton]
    | false =>
      rw [cond_false, List.append_nil, ih, if_neg Bool.false_ne_true,
        List.take_append_of_le_length (Line.lastStop_le boundary s)]

theorem find?_map_cons (p : Char → Bool) (c : Char) {l : List (List Char)}
    (hl : ∀ s ∈ l, s ≠ []) :
    (l.map (c :: ·)).find? (endsWith p) = (l.find? (endsWith p)).map (c :: ·) := by
  induction l with
  | nil => rfl
  | cons s l ih =>
    rw [List.forall_mem_cons] at hl
    rw [List.map_cons, List.find?_cons, List.find?_cons, endsWith_cons p c hl.1, ih hl.2]
    split <;> rfl

theorem ne_nil_of_mem_tail_inits {s t : List Char} (ht : t ∈ s.inits.tail) : t ≠ [] := by
  cases s with
  | nil => simp at ht
  | cons c s =>
    rw [List.inits_cons, List.tail_cons, List.mem_map] at ht
    obtain ⟨u, -, rfl⟩ := ht
    exact List.cons_ne_nil c u

/-- **The shortest beginning of a text that ends with a boundary.** -/
theorem find?_tail_inits (s : List Char) :
    s.inits.tail.find? (endsWith boundary) =
      (s.findIdx? boundary).map fun i => s.take (i + 1) := by
  induction s with
  | nil => rfl
  | cons c s ih =>
    have hinits : (c :: s).inits.tail = [c] :: s.inits.tail.map (c :: ·) := by
      cases s <;> rfl
    rw [hinits, List.find?_cons, show endsWith boundary [c] = boundary c from rfl,
      find?_map_cons boundary c fun t => ne_nil_of_mem_tail_inits, ih, List.findIdx?_cons]
    cases boundary c with
    | true => rfl
    | false =>
      cases s.findIdx? boundary <;> rfl

/-! ## One square for each operation -/

/-- The line that the two texts are the sides of. -/
def toLine (z : Zipper) : Line := .between z.left z.right

theorem drop_length_take (n : Nat) (s : List Char) : s.drop (s.take n).length = s.drop n := by
  rw [List.length_take, ← List.drop_eq_drop_min]

theorem backWord_toLine (z : Zipper) (boundary : Char → Bool) :
    z.toLine.backWord boundary = (z.backWord boundary).toLine := by
  have hkept : (z.left.inits.dropLast.filter (isStop boundary)).getLast?.getD [] =
      z.left.take (Line.lastStop boundary z.left.dropLast) := by
    obtain hnil | ⟨s, c, hs⟩ := List.eq_nil_or_concat z.left
    · rw [hnil]
      rfl
    · have hle := Line.lastStop_le boundary s
      rw [hs, List.concat_eq_append, inits_concat, List.dropLast_concat, List.dropLast_concat,
        getLast?_filter_inits, Option.getD_some, List.take_append_of_le_length hle]
  rw [toLine, Line.backWord_between, backWord, hkept, drop_length_take]
  rfl

theorem forwardWord_toLine (z : Zipper) (boundary : Char → Bool) :
    z.toLine.forwardWord boundary = (z.forwardWord boundary).toLine := by
  have hmoved : (z.right.inits.drop 2).find? (endsWith boundary) =
      ((z.right.drop 1).findIdx? boundary).map fun i => z.right.take (i + 2) := by
    cases z.right with
    | nil => rfl
    | cons c s =>
      have hinits : (c :: s).inits.drop 2 = s.inits.tail.map (c :: ·) := by
        cases s <;> rfl
      rw [hinits, find?_map_cons boundary c fun t => ne_nil_of_mem_tail_inits, find?_tail_inits,
        Option.map_map]
      rfl
  rw [toLine, Line.forwardWord_between, forwardWord, hmoved]
  cases (z.right.drop 1).findIdx? boundary with
  | none => rw [Option.map_none, Option.getD_none, List.drop_length, toLine]
  | some i => rw [Option.map_some, Option.getD_some, drop_length_take, toLine]

theorem insert_toLine (z : Zipper) (c : Char) : z.toLine.insert c = (z.insert c).toLine := by
  rw [toLine, Line.insert_between, insert, Line.stepsOver, Line.besideBlank, Line.start_between,
    Line.rest_between]
  by_cases hover :
      ((lastToken? z.left).bind Token.quote? == some c && z.right.head? == some c) = true
  · -- what is stepped over is the character that is typed
    have hhead : z.right.take 1 = [c] := by
      rw [Bool.and_eq_true, beq_iff_eq, beq_iff_eq] at hover
      rw [List.take_one, hover.2]
      rfl
    rw [if_pos hover, if_pos hover, hhead, List.drop_one]
    split_ifs <;> rfl
  · rw [if_neg hover, if_neg hover]
    split_ifs <;> rfl

theorem remove_toLine (z : Zipper) : z.toLine.remove = z.remove.toLine := by
  rw [toLine, Line.remove_between, Line.betweenQuotes, Line.start_between, Line.rest_between,
    remove]
  obtain ⟨left, right⟩ := z
  cases hlast : left.getLast? with
  | none => rfl
  | some a =>
    cases right with
    | nil => rfl
    | cons b right =>
      simp only [List.head?_cons, Bool.and_eq_true, beq_iff_eq, List.drop_one, List.tail_cons]
      split <;> rfl

/-- **One operation does the same to the line and to the texts on its sides.** -/
theorem apply_toLine (z : Zipper) (op : Line.Op) : op.apply z.toLine = (z.apply op).toLine := by
  cases op with
  | back n => exact Line.back_between n
  | forward n => exact Line.forward_between n
  | toStart => exact Line.toStart_between
  | toEnd => exact Line.toEnd_between
  | backWord boundary => exact z.backWord_toLine boundary
  | forwardWord boundary => exact z.forwardWord_toLine boundary
  | insert c => exact z.insert_toLine c
  | remove => exact z.remove_toLine
  | removeNext =>
    rw [apply, removeNext, ← List.drop_one]
    exact Line.removeNext_between
  | removeWord boundary =>
    rw [Line.Op.apply, Line.removeWord, backWord_toLine]
    exact Line.removeEnd_between
  | removeEnd => exact Line.removeEnd_between
  | clearEnd => exact Line.clearEnd_between
  | clear => rfl

theorem applyAll_toLine (z : Zipper) (ops : List Line.Op) :
    z.toLine.applyAll ops = (z.applyAll ops).toLine := by
  induction ops generalizing z with
  | nil => rfl
  | cons op ops ih =>
    rw [Line.applyAll, List.foldl_cons, apply_toLine]
    exact ih (z.apply op)

/-- **A line and a zipper never differ.**  Whatever is done to a text, from its start on, the sides
of the cursor are the texts of the zipper, and the cursor counts the characters on the left. -/
theorem sides_applyAll_ofText (s : List Char) (ops : List Line.Op) :
    let l := (Line.ofText s).applyAll ops
    let z := applyAll ⟨[], s⟩ ops
    l.start = z.left ∧ l.rest = z.right ∧ l.cursor = z.left.length := by
  intro l z
  have hline : l = .between z.left z.right := applyAll_toLine ⟨[], s⟩ ops
  rw [hline]
  exact ⟨Line.start_between, Line.rest_between, Line.cursor_between⟩

/-- The second quote closes the first; the third is typed between them and steps over. -/
example : applyAll ⟨[], []⟩ [.insert '\x22', .insert '\x22', .back 1, .insert '\x22', .remove] =
    ⟨['\x22'], []⟩ := by decide +kernel

end Zipper

end ShellLine
