import ShellLine.Proofs.Lex.QuotePairs
import ShellLine.Proofs.Line.Insertion

/-!
# Proofs/Line/Backspace — what deleting backwards takes, and what it undoes

Deleting backwards looks at the two characters around the cursor: two quotes of a kind go together.
The tokens of the line know more, and here the two are compared.

* `remove_iff` says which pairs of quotes go: those of empty values, and the false pairs, where a
  quote goes that belongs to another value or to the text of one.
* `remove_insert_eq_self_iff` says when deleting takes back what was typed.
-/

namespace ShellLine

namespace Line

variable {s left right : List Char} {i : Nat}

/-! ## Two quotes around the cursor -/

theorem betweenQuotes_between :
    (between left right).betweenQuotes = true ↔
      ∃ c, isQuote c = true ∧ left.getLast? = some c ∧ right.head? = some c := by
  rw [betweenQuotes, start_between, rest_between]
  constructor
  · intro h
    split at h
    next a b hlast hhead =>
      obtain ⟨hab, hb⟩ := Bool.and_eq_true_iff.1 h
      obtain rfl : a = b := beq_iff_eq.1 hab
      exact ⟨a, hb, hlast, hhead⟩
    next => cases h
  · rintro ⟨c, hc, hlast, hhead⟩
    rw [hlast, hhead]
    simpa using hc

/-- **Two quotes of a kind stand around the cursor** exactly if it is inside an empty value or a
false pair. -/
theorem betweenQuotes_iff (hi : i < s.length) :
    (Line.mk s (i + 1 : Nat)).betweenQuotes = true ↔
      IsEmptyPairAt (tokenize s) i ∨ IsFalsePairAt (tokenize s) i := by
  rw [← quotePair_iff (isCanonical_tokenize s), textOf_tokenize, mk_eq_between hi,
    betweenQuotes_between, List.head?_drop, List.take_succ_eq_append_getElem hi,
    List.getLast?_concat, List.getElem?_eq_getElem hi]

theorem remove_of_lt (hi : i < s.length) :
    (Line.mk s (i + 1 : Nat)).remove =
      if (Line.mk s (i + 1 : Nat)).betweenQuotes then ⟨s.take i ++ s.drop (i + 2), i⟩
      else ⟨s.take i ++ s.drop (i + 1), i⟩ := by
  have hleft : (s.take (i + 1)).dropLast = s.take i := by
    rw [List.take_succ_eq_append_getElem hi, List.dropLast_concat]
  have hbetween (t : List Char) : between (s.take i) t = ⟨s.take i ++ t, i⟩ := by
    rw [between, List.length_take, Nat.min_eq_left hi.le]
  rw [mk_eq_between hi, remove_between, hleft, List.drop_drop, hbetween, hbetween]

/-- **What deleting backwards takes.**  With the character at place `i` left of the cursor, the one
at the cursor goes too exactly if the two are the quotes of an empty value or a false pair; else
only the former goes.  The cursor moves back by one.  So two characters go for empty values only,
except at a false pair. -/
theorem remove_iff (hi : i < s.length) :
    let both : Prop :=
      i + 1 < s.length ∧ (Line.mk s (i + 1 : Nat)).remove = ⟨s.take i ++ s.drop (i + 2), i⟩
    (both ↔ IsEmptyPairAt (tokenize s) i ∨ IsFalsePairAt (tokenize s) i) ∧
      (¬ both → (Line.mk s (i + 1 : Nat)).remove = ⟨s.take i ++ s.drop (i + 1), i⟩) ∧
      ((both ↔ IsEmptyPairAt (tokenize s) i) ↔ ¬ IsFalsePairAt (tokenize s) i) := by
  intro both
  have hboth : both ↔ (Line.mk s (i + 1 : Nat)).betweenQuotes = true := by
    constructor
    · rintro ⟨hlt, hremove⟩
      by_contra hquotes
      rw [remove_of_lt hi, if_neg hquotes] at hremove
      have hlength := congrArg (fun l => l.text.length) hremove
      simp only [List.length_append, List.length_take, List.length_drop] at hlength
      omega
    · intro hquotes
      obtain ⟨c, -, -, hnext⟩ := (quotePair_iff (isCanonical_tokenize s) i).2
        ((betweenQuotes_iff hi).1 hquotes)
      rw [textOf_tokenize] at hnext
      exact ⟨(List.getElem?_eq_some_iff.1 hnext).1, by rw [remove_of_lt hi, if_pos hquotes]⟩
  have hpair : both ↔ IsEmptyPairAt (tokenize s) i ∨ IsFalsePairAt (tokenize s) i :=
    hboth.trans (betweenQuotes_iff hi)
  refine ⟨hpair, ?_, ?_⟩
  · intro hone
    rw [remove_of_lt hi, if_neg (mt hboth.2 hone)]
  · rw [hpair]
    constructor
    · intro h hfalse
      exact (h.1 (.inr hfalse)).not_isFalsePairAt hfalse
    · intro hfalse
      exact ⟨fun h => h.resolve_right hfalse, .inl⟩

/-- Inside an empty value between two letters. -/
theorem remove_iff_empty_value :
    1 < ['a', '\x22', '\x22', 'b'].length ∧
      (Line.mk ['a', '\x22', '\x22', 'b'] (1 + 1 : Nat)).remove = ⟨['a', 'b'], (1 : Nat)⟩ :=
  have hlength : 1 < ['a', '\x22', '\x22', 'b'].length := by decide
  have hpair : IsEmptyPairAt (tokenize ['a', '\x22', '\x22', 'b']) 1 :=
    ⟨'\x22', by decide +kernel⟩
  ⟨hlength, ((remove_iff hlength).1.2 (.inl hpair)).2⟩

/-- Deleting an escaped quote takes the closing quote along, though the value is not empty. -/
theorem not_forall_remove_iff :
    ¬ ∀ (s : List Char) (i : Nat), i < s.length →
      (i + 1 < s.length ∧ (Line.mk s (i + 1 : Nat)).remove = ⟨s.take i ++ s.drop (i + 2), i⟩ ↔
        IsEmptyPairAt (tokenize s) i) := by
  intro h
  have hremove : (Line.mk ['\x22', '\x5c', '\x22', '\x22'] (2 + 1 : Nat)).remove =
      ⟨['\x22', '\x5c'], (2 : Nat)⟩ := by
    decide +kernel
  obtain ⟨q, hat⟩ := (h ['\x22', '\x5c', '\x22', '\x22'] 2 (by decide)).1 ⟨by decide, hremove⟩
  have hescaped : tokenAt? (tokenize ['\x22', '\x5c', '\x22', '\x22']) 2 =
      some (.value (.quoted '\x22' ['\x5c', '\x22']), 2) := by
    decide +kernel
  simpa using hescaped.symm.trans hat

/-! ## Deleting what was typed -/

/-- Deleting a character takes an equal quote behind it along. -/
theorem remove_between_concat (left right : List Char) (c : Char) :
    (between (left ++ [c]) right).remove =
      if isQuote c = true ∧ right.head? = some c then between left (right.drop 1)
      else between left right := by
  have hquotes : (between (left ++ [c]) right).betweenQuotes = true ↔
      isQuote c = true ∧ right.head? = some c := by
    rw [betweenQuotes_between, List.getLast?_concat]
    constructor
    · rintro ⟨d, hd, hlast, hhead⟩
      obtain rfl : c = d := Option.some.inj hlast
      exact ⟨hd, hhead⟩
    · rintro ⟨hc, hhead⟩
      exact ⟨c, hc, rfl, hhead⟩
  rw [remove_between, List.dropLast_concat]
  exact if_congr hquotes rfl rfl

/-- Deleting changes nothing only at the start of a line. -/
theorem remove_between_eq_self_iff :
    (between left right).remove = between left right ↔ left = [] := by
  constructor
  · intro h
    have hlast : left.dropLast = left := by
      rw [remove_between] at h
      split at h
      next => exact (between_inj.1 h).1
      next => exact (between_inj.1 h).1
    have hlength := congrArg List.length hlast
    rw [List.length_dropLast] at hlength
    exact List.length_eq_zero_iff.1 (by omega)
  · rintro rfl
    have hquotes : ¬ (between [] right).betweenQuotes = true := by
      rw [betweenQuotes_between]
      rintro ⟨c, -, hlast, -⟩
      cases hlast
    rw [remove_between, if_neg hquotes]
    rfl

/-- **When deleting takes back what was typed.**  It does so for a character that was added to the
text, but for a quote in front of an equal one, which goes with it; and for a character that was
dropped at the start of the line, where there is nothing to delete. -/
theorem remove_insert_eq_self_iff {l : Line} (hl : l.IsInside) (c : Char) :
    (l.insert c).remove = l ↔
      (l.insert c).text = l.start ++ c :: l.rest ∧ ¬ (isQuote c = true ∧ l.rest.head? = some c) ∨
        l.insert c = l ∧ l.cursor = 0 := by
  obtain ⟨left, right, rfl⟩ := isInside_iff.1 hl
  rw [start_between, rest_between, cursor_between, ← fate_eq_put_iff, ← fate_eq_dropped_iff]
  obtain ⟨hfate, hinsert⟩ | ⟨behind, rfl, -, hfate, hinsert⟩ | ⟨-, hfate, hinsert⟩ :=
    insert_cases left right c
  · -- deleted again, unless an equal quote follows
    have hput : (between (left ++ [c]) right).remove = between left right ↔
        ¬ (isQuote c = true ∧ right.head? = some c) := by
      rw [remove_between_concat]
      split
      next hpair =>
        obtain ⟨behind, rfl⟩ := List.head?_eq_some_iff.1 hpair.2
        simp [between_inj, hpair.1]
      next hpair => exact iff_of_true rfl hpair
    rw [hinsert, hput, hfate]
    simp
  · -- the character stepped over is deleted, and was there before
    have hne : (between (left ++ [c]) behind).remove ≠ between left (c :: behind) := by
      rw [remove_between_concat]
      split
      next =>
        intro h
        have hlength := congrArg List.length (between_inj.1 h).2
        simp only [List.length_drop, List.length_cons] at hlength
        omega
      next => simp [between_inj]
    rw [hinsert, hfate]
    simp [hne]
  · rw [hinsert, remove_between_eq_self_iff, hfate]
    simp

/-- A quote that is typed in front of an equal one goes together with it; a letter goes alone. -/
theorem remove_insert_eq_self_iff_before_quote :
    (between ['a'] ['\x22', 'b', '\x22']).IsInside ∧
      ((between ['a'] ['\x22', 'b', '\x22']).insert '\x22').remove ≠
        between ['a'] ['\x22', 'b', '\x22'] ∧
      ((between ['a'] ['\x22', 'b', '\x22']).insert 'c').remove =
        between ['a'] ['\x22', 'b', '\x22'] := by
  have hinside : (between ['a'] ['\x22', 'b', '\x22']).IsInside := isInside_between _ _
  refine ⟨hinside, ?_, ?_⟩
  · rw [Ne, remove_insert_eq_self_iff hinside]
    rintro (⟨-, hother⟩ | ⟨-, hstart⟩)
    · exact hother ⟨rfl, by decide +kernel⟩
    · cases hstart
  · rw [remove_insert_eq_self_iff hinside]
    exact .inl ⟨by decide +kernel, by decide +kernel⟩

end Line

end ShellLine
