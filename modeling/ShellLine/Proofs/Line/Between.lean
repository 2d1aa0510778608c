import Mathlib.Data.List.Basic
import ShellLine.Line.Typing

/-!
# Proofs/Line/Between — a line as the texts on both sides of its cursor

A cursor that is inside the text parts it into what is left and what is right of it: the line is
`between` the two.  Every operation on such a line moves characters from one side to the other, or
adds or drops some, and is again a line between two texts.

* `isInside_iff` says that the lines between two texts are those whose cursor is inside the text.
* `Op` lists the operations, and `IsInside.applyAll` says that they keep the cursor inside.
* `text_apply_subset` says that only typing brings characters into the text.
-/

namespace ShellLine

namespace Line

/-- The line with the cursor between two texts. -/
def between (left right : List Char) : Line := ⟨left ++ right, left.length⟩

/-- Is the cursor inside the text, ends included? -/
structure IsInside (l : Line) : Prop where
  nonneg : 0 ≤ l.cursor
  le_length : l.cursor ≤ l.length

theorem before_eq_take {l : Line} {n : Nat} (h : n ≤ l.length) : l.before n = l.text.take n :=
  congrArg l.text.take (cut_natCast h)

theorem after_eq_drop {l : Line} {n : Nat} (h : n ≤ l.length) : l.after n = l.text.drop n :=
  congrArg l.text.drop (cut_natCast h)

section Between

variable {left right : List Char}

@[simp] theorem text_between : (between left right).text = left ++ right := rfl

@[simp] theorem cursor_between : (between left right).cursor = left.length := rfl

@[simp] theorem length_between : (between left right).length = left.length + right.length :=
  List.length_append

@[simp] theorem start_between : (between left right).start = left := by
  rw [between, start_eq_take (by simp), List.take_left]

@[simp] theorem rest_between : (between left right).rest = right := by
  rw [between, rest_eq_drop (by simp), List.drop_left]

@[simp] theorem isEmpty_between :
    (between left right).isEmpty = (left.isEmpty && right.isEmpty) := by
  cases left <;> rfl

@[simp] theorem atEnd_between : (between left right).atEnd = right.isEmpty := by
  rw [atEnd, cursor_between, length_between, Bool.eq_iff_iff, beq_iff_eq, List.isEmpty_iff,
    ← List.length_eq_zero_iff]
  omega

theorem isInside_between (left right : List Char) : (between left right).IsInside :=
  ⟨by simp, by rw [cursor_between, length_between]; omega⟩

theorem between_inj {left' right' : List Char} :
    between left right = between left' right' ↔ left = left' ∧ right = right' := by
  constructor
  · intro h
    have hstart := congrArg start h
    have hrest := congrArg rest h
    simp only [start_between, rest_between] at hstart hrest
    exact ⟨hstart, hrest⟩
  · rintro ⟨rfl, rfl⟩
    rfl

theorem mk_eq_between {s : List Char} {n : Nat} (hn : n ≤ s.length) :
    Line.mk s n = between (s.take n) (s.drop n) := by
  rw [between, List.take_append_drop, List.length_take, Nat.min_eq_left hn]

/-- **A line whose cursor is inside is the line between its two sides.** -/
theorem IsInside.eq_between {l : Line} (h : l.IsInside) : l = between l.start l.rest := by
  obtain ⟨text, cursor⟩ := l
  obtain ⟨n, rfl⟩ := Int.eq_ofNat_of_zero_le h.nonneg
  have hn : n ≤ text.length := Int.ofNat_le.1 h.le_length
  rw [start_eq_take hn, rest_eq_drop hn]
  exact mk_eq_between hn

theorem isInside_iff {l : Line} : l.IsInside ↔ ∃ left right, l = between left right := by
  constructor
  · intro h
    exact ⟨l.start, l.rest, h.eq_between⟩
  · rintro ⟨left, right, rfl⟩
    exact isInside_between left right

/-! ## Motion -/

theorem back_between (n : Nat) :
    (between left right).back n =
      between (left.take (left.length - n)) (left.drop (left.length - n) ++ right) := by
  simp only [back, between, mk.injEq, List.length_take]
  rw [← List.append_assoc, List.take_append_drop]
  refine ⟨rfl, ?_⟩
  omega

theorem forward_between (n : Nat) :
    (between left right).forward n = between (left ++ right.take n) (right.drop n) := by
  simp only [forward, between, mk.injEq, length, List.length_append, List.length_take]
  rw [List.append_assoc, List.take_append_drop]
  refine ⟨rfl, ?_⟩
  omega

theorem toStart_between : (between left right).toStart = between [] (left ++ right) := rfl

theorem toEnd_eq_between (l : Line) : l.toEnd = between l.text [] := by
  simp [toEnd, between, length]

theorem toEnd_between : (between left right).toEnd = between (left ++ right) [] :=
  toEnd_eq_between _

theorem lastStop_le (boundary : Char → Bool) (s : List Char) : lastStop boundary s ≤ s.length := by
  have h := (List.dropWhile_sublist (fun c => !boundary c) (l := s.reverse)).length_le
  rwa [List.length_reverse] at h

theorem lastStop_concat (boundary : Char → Bool) (s : List Char) (c : Char) :
    lastStop boundary (s ++ [c]) =
      if boundary c then s.length + 1 else lastStop boundary s := by
  rw [lastStop, List.reverse_append, List.reverse_singleton, List.singleton_append,
    List.dropWhile_cons]
  cases boundary c <;> simp [lastStop]

/-- Going back by a word parts what is left of the cursor. -/
theorem backWord_between (boundary : Char → Bool) :
    (between left right).backWord boundary =
      between (left.take (lastStop boundary left.dropLast))
        (left.drop (lastStop boundary left.dropLast) ++ right) := by
  have hle : lastStop boundary left.dropLast ≤ left.length :=
    Nat.le_trans (lastStop_le boundary left.dropLast) (by simp)
  rw [backWord, start_between, between, between, ← List.append_assoc, List.take_append_drop,
    List.length_take, Nat.min_eq_left hle]

theorem forwardWord_between (boundary : Char → Bool) :
    (between left right).forwardWord boundary =
      match (right.drop 1).findIdx? boundary with
      | some i => between (left ++ right.take (i + 2)) (right.drop (i + 2))
      | none => between (left ++ right) [] := by
  rw [forwardWord, rest_between]
  cases (right.drop 1).findIdx? boundary with
  | none => exact toEnd_between
  | some i => exact forward_between (i + 2)

/-! ## Typing -/

theorem put_between (c : Char) : (between left right).put c = between (left ++ [c]) right := by
  have hline : (⟨left ++ c :: right, left.length⟩ : Line) = between left (c :: right) := rfl
  rw [put, start_between, rest_between, cursor_between, hline]
  exact forward_between 1

/-- A typed character steps over one, is dropped, or is put at the cursor. -/
theorem insert_between (c : Char) :
    (between left right).insert c =
      if isQuote c then
        if (between left right).stepsOver c then between (left ++ right.take 1) (right.drop 1)
        else between (left ++ [c]) right
      else if isBlank c && (between left right).besideBlank then between left right
      else between (left ++ [c]) right := by
  rw [insert, put_between, show (between left right).forward 1 = _ from forward_between 1]
  cases isBlank c <;> rfl

/-! ## Deleting -/

theorem deleteBack_between :
    (between left right).deleteBack = between left.dropLast right := by
  rcases List.eq_nil_or_concat left with rfl | ⟨left, c, rfl⟩
  · cases right <;> rfl
  · rw [List.concat_eq_append]
    have hbefore : (between (left ++ [c]) right).before ((left ++ [c]).length - 1) = left := by
      rw [List.length_append, List.length_singleton, Int.natCast_add, Int.natCast_one,
        Int.add_sub_cancel, before_eq_take (by simp; omega), text_between, List.append_assoc,
        List.take_left]
    have hback (s : List Char) : back ⟨s, (left ++ [c]).length⟩ 1 = ⟨s, left.length⟩ := by
      simp [back]
    have hpos : 0 < ((left ++ [c]).length : Int) := by simp
    rw [deleteBack, isEmpty_between, atEnd_between, cursor_between, rest_between, hbefore,
      if_pos hpos, hback, List.dropLast_concat]
    split
    next hend =>
      -- at the end there is nothing on the right, and the last of the text is the last of the left
      obtain rfl : right = [] := by simpa using hend
      rw [text_between, List.append_nil, List.dropLast_concat, between, List.append_nil]
    next => rfl

theorem remove_between :
    (between left right).remove =
      if (between left right).betweenQuotes then between left.dropLast (right.drop 1)
      else between left.dropLast right := by
  rw [remove]
  split
  next h =>
    -- both sides have the quote, so stepping over it and deleting twice takes one from each
    obtain ⟨c, right, rfl⟩ : ∃ c s, right = c :: s := by
      cases right with
      | nil => simp [betweenQuotes] at h
      | cons c s => exact ⟨c, s, rfl⟩
    rw [show (between left (c :: right)).forward 1 = _ from forward_between 1, deleteBack_between,
      deleteBack_between]
    simp
  next => exact deleteBack_between

theorem removeNext_between :
    (between left right).removeNext = between left (right.drop 1) := by
  cases right with
  | nil =>
    rw [removeNext, if_neg (by simp)]
    rfl
  | cons c right =>
    have hafter : (between left (c :: right)).after (left.length + 1) = right := by
      have h := after_eq_drop (l := between left (c :: right)) (n := left.length + 1) (by simp)
      rw [Int.natCast_add, Int.natCast_one] at h
      rw [h, text_between, List.append_cons, List.drop_left' (by simp)]
    have hlt : (between left (c :: right)).cursor < (between left (c :: right)).length := by
      rw [cursor_between, length_between, List.length_cons]
      omega
    rw [removeNext, if_pos hlt, start_between, cursor_between, hafter]
    rfl

theorem removeEnd_between : (between left right).removeEnd = between left [] := by
  rw [removeEnd, start_between]
  simp [between]

theorem clearEnd_between : (between left right).clearEnd = between left [] := by
  rw [clearEnd, removeEnd_between, toEnd_between, List.append_nil]

theorem removeWord_between (boundary : Char → Bool) :
    (between left right).removeWord boundary =
      between (left.take (lastStop boundary left.dropLast)) [] := by
  rw [removeWord, backWord_between, removeEnd_between]

end Between

/-! ## Operations

What a user can do to a line, as data: a run of operations is a list. -/

/-- An operation on a line. Motion by words is told which characters end a word. -/
inductive Op
  | back (n : Nat)
  | forward (n : Nat)
  | toStart
  | toEnd
  | backWord (boundary : Char → Bool)
  | forwardWord (boundary : Char → Bool)
  | insert (c : Char)
  | remove
  | removeNext
  | removeWord (boundary : Char → Bool)
  | removeEnd
  | clearEnd
  | clear

/-- What an operation does. -/
def Op.apply (l : Line) : Op → Line
  | back n => l.back n
  | forward n => l.forward n
  | toStart => l.toStart
  | toEnd => l.toEnd
  | backWord boundary => l.backWord boundary
  | forwardWord boundary => l.forwardWord boundary
  | insert c => l.insert c
  | remove => l.remove
  | removeNext => l.removeNext
  | removeWord boundary => l.removeWord boundary
  | removeEnd => l.removeEnd
  | clearEnd => l.clearEnd
  | clear => l.clear

/-- Apply operations one after the other. -/
def applyAll (l : Line) (ops : List Op) : Line := ops.foldl Op.apply l

theorem insertText_eq_applyAll (l : Line) (s : List Char) :
    l.insertText s = l.applyAll (s.map .insert) := by
  rw [insertText, applyAll, List.foldl_map]
  rfl

theorem isInside_empty : empty.IsInside := isInside_between [] []

theorem isInside_toEnd (l : Line) : l.toEnd.IsInside :=
  ⟨Int.natCast_nonneg _, Int.le_refl _⟩

/-- An operation on a line between two texts gives a line between two texts. -/
theorem exists_apply_between (left right : List Char) (op : Op) :
    ∃ left' right', op.apply (between left right) = between left' right' := by
  cases op with
  | back n => exact ⟨_, _, back_between n⟩
  | forward n => exact ⟨_, _, forward_between n⟩
  | toStart => exact ⟨_, _, toStart_between⟩
  | toEnd => exact ⟨_, _, toEnd_between⟩
  | backWord boundary => exact ⟨_, _, backWord_between boundary⟩
  | forwardWord boundary =>
    rw [Op.apply, forwardWord_between]
    split <;> exact ⟨_, _, rfl⟩
  | insert c =>
    rw [Op.apply, insert_between]
    split_ifs <;> exact ⟨_, _, rfl⟩
  | remove =>
    rw [Op.apply, remove_between]
    split <;> exact ⟨_, _, rfl⟩
  | removeNext => exact ⟨_, _, removeNext_between⟩
  | removeWord boundary => exact ⟨_, _, removeWord_between boundary⟩
  | removeEnd => exact ⟨_, _, removeEnd_between⟩
  | clearEnd => exact ⟨_, _, clearEnd_between⟩
  | clear => exact ⟨[], [], rfl⟩

/-- **No operation takes the cursor out of the text.** -/
theorem IsInside.apply {l : Line} (h : l.IsInside) (op : Op) : (op.apply l).IsInside := by
  obtain ⟨left, right, rfl⟩ := isInside_iff.1 h
  exact isInside_iff.2 (exists_apply_between left right op)

theorem IsInside.applyAll {l : Line} (h : l.IsInside) (ops : List Op) :
    (l.applyAll ops).IsInside := by
  induction ops generalizing l with
  | nil => exact h
  | cons op ops ih => exact ih (h.apply op)

/-! ## Characters

What an operation leaves was in the text before, but for a character that it types. -/

/-- The character that an operation adds. -/
def Op.added : Op → List Char
  | .insert c => [c]
  | _ => []

theorem before_subset (l : Line) (i : Int) : l.before i ⊆ l.text := List.take_subset _ _

theorem after_subset (l : Line) (i : Int) : l.after i ⊆ l.text := List.drop_subset _ _

theorem text_insert_subset (l : Line) (c : Char) : (l.insert c).text ⊆ c :: l.text := by
  have hput : (l.put c).text ⊆ c :: l.text := by
    refine List.append_subset.2 ⟨?_, List.cons_subset_cons c (l.after_subset _)⟩
    exact List.subset_cons_of_subset c (l.before_subset _)
  have hself : l.text ⊆ c :: l.text := List.subset_cons_self c l.text
  rw [insert]
  split_ifs
  · exact hself
  · exact hput
  · exact hself
  · exact hput
  · exact hput

theorem text_deleteBack_subset (l : Line) : l.deleteBack.text ⊆ l.text := by
  change (if l.isEmpty || l.atEnd then _ else _) ⊆ l.text
  split_ifs
  · exact List.dropLast_subset _
  · exact List.append_subset.2 ⟨l.before_subset _, l.after_subset _⟩
  · exact List.Subset.refl _

theorem text_remove_subset (l : Line) : l.remove.text ⊆ l.text := by
  rw [remove]
  split_ifs
  · exact List.Subset.trans (text_deleteBack_subset _) (text_deleteBack_subset (l.forward 1))
  · exact l.text_deleteBack_subset

theorem text_removeNext_subset (l : Line) : l.removeNext.text ⊆ l.text := by
  rw [removeNext]
  split_ifs
  · exact List.append_subset.2 ⟨l.before_subset _, l.after_subset _⟩
  · exact List.Subset.refl _

/-- **All that an operation leaves was there, or is what it adds.** -/
theorem text_apply_subset (l : Line) (op : Op) : (op.apply l).text ⊆ op.added ++ l.text := by
  cases op with
  | back n => exact List.Subset.refl _
  | forward n => exact List.Subset.refl _
  | toStart => exact List.Subset.refl _
  | toEnd => exact List.Subset.refl _
  | backWord boundary => exact List.Subset.refl _
  | forwardWord boundary =>
    rw [Op.apply, forwardWord]
    split <;> exact List.Subset.refl _
  | insert c => exact l.text_insert_subset c
  | remove => exact l.text_remove_subset
  | removeNext => exact l.text_removeNext_subset
  | removeWord boundary => exact (l.backWord boundary).before_subset _
  | removeEnd => exact l.before_subset _
  | clearEnd => exact l.before_subset _
  | clear => exact List.nil_subset _

end Line

end ShellLine
