import ShellLine.Proofs.Lex.Places
import ShellLine.Proofs.Line.Between

/-!
# Proofs/Line/Neighbours — what typing makes of the characters around the cursor

Typing reads the text left of the cursor on its own, and the text right of it on its own.  Here the
two are compared with the tokens of the whole line.

* A typed quote steps over the one that closes a value.  It also steps over an escaped quote, and
  over one that opens a value right behind a closed one, since only the quote of the last token on
  the left is asked for (`insert_of_isQuote_iff`).
* A typed blank is dropped beside a run of blanks.  It is also dropped in front of a blank that
  stands between quotes, since the text on the right does not show the quote in front of it
  (`insert_of_isBlank_iff`).
-/

namespace ShellLine

namespace Line

variable {s : List Char} {n : Nat} {q w : Char}

/-! ## Typing a quote -/

/-- **Which quotes are stepped over.** -/
theorem stepsOver_iff (hn : n ≤ s.length) :
    (Line.mk s n).stepsOver q = true ↔
      ClosesAt (tokenize s) q n ∨ IsEscapedAt (tokenize s) q n ∨ ReopensAt (tokenize s) q n := by
  rw [stepsOver, start_eq_take hn, rest_eq_drop hn, List.head?_drop]
  cases n with
  | zero =>
    constructor
    · intro h
      simp [lastToken?] at h
    · rintro (⟨content, hat⟩ | ⟨v, k, hat, -⟩ | ⟨-, j, hj, -⟩)
      · exact absurd hat tokenAt?_zero_ne_succ
      · exact absurd hat tokenAt?_zero_ne_succ
      · cases hj
  | succ i =>
    have hi : i < (textOf (tokenize s)).length := by rwa [textOf_tokenize]
    obtain ⟨t, k, hat⟩ := exists_tokenAt? hi
    rw [lastToken?_take_succ hat, Option.bind_some, Token.quote?_take, Bool.and_eq_true,
      beq_iff_eq, beq_iff_eq, ← quote_succ_iff (isCanonical_tokenize s) hat, textOf_tokenize]

theorem put_of_le (hn : n ≤ s.length) (c : Char) :
    (Line.mk s n).put c = ⟨s.take n ++ c :: s.drop n, n + 1⟩ := by
  have hlength : (s.take n ++ [c]).length = n + 1 := by
    rw [List.length_append, List.length_take, Nat.min_eq_left hn, List.length_singleton]
  rw [mk_eq_between hn, put_between, between, hlength, List.append_assoc]
  rfl

theorem forward_of_stepsOver (hn : n ≤ s.length) (h : (Line.mk s n).stepsOver q = true) :
    (Line.mk s n).forward 1 = ⟨s, n + 1⟩ := by
  have hlt : n < s.length := by
    rw [stepsOver, rest_eq_drop hn, List.head?_drop, Bool.and_eq_true, beq_iff_eq] at h
    exact (List.getElem?_eq_some_iff.1 (beq_iff_eq.1 h.2)).1
  simp only [forward, length, mk.injEq, true_and]
  omega

/-- **What a typed quote does.**  It steps over the character at the cursor exactly if that is the
closing quote of a value in that quote, or an escaped quote in such a value, or a quote that opens a
value right behind one; else it is put at the cursor.  So stepping over means closing except at the
latter two. -/
theorem insert_of_isQuote_iff (hn : n ≤ s.length) (hq : isQuote q = true) :
    let passed : Prop :=
      ClosesAt (tokenize s) q n ∨ IsEscapedAt (tokenize s) q n ∨ ReopensAt (tokenize s) q n
    ((Line.mk s n).insert q = ⟨s, n + 1⟩ ↔ passed) ∧
      (¬ passed → (Line.mk s n).insert q = ⟨s.take n ++ q :: s.drop n, n + 1⟩) ∧
      (((Line.mk s n).insert q = ⟨s, n + 1⟩ ↔ ClosesAt (tokenize s) q n) ↔
        ¬ IsEscapedAt (tokenize s) q n ∧ ¬ ReopensAt (tokenize s) q n) := by
  intro passed
  have hover : (Line.mk s n).stepsOver q = true ↔ passed := stepsOver_iff hn
  have hput : ¬ passed → (Line.mk s n).insert q = ⟨s.take n ++ q :: s.drop n, n + 1⟩ := by
    intro h
    rw [insert, if_pos hq, if_neg (mt hover.1 h), put_of_le hn]
  have hstep : (Line.mk s n).insert q = ⟨s, n + 1⟩ ↔ passed := by
    constructor
    · intro h
      by_contra hnot
      have hlength := congrArg (fun l => l.text.length) ((hput hnot).symm.trans h)
      simp at hlength
      omega
    · intro h
      rw [insert, if_pos hq, if_pos (hover.2 h), forward_of_stepsOver hn (hover.2 h)]
  refine ⟨hstep, hput, ?_⟩
  rw [hstep]
  constructor
  · intro h
    exact ⟨fun he => he.not_closesAt (h.1 (.inr (.inl he))),
      fun ho => ho.not_closesAt (h.1 (.inr (.inr ho)))⟩
  · rintro ⟨hescaped, hopen⟩
    exact ⟨fun h => h.resolve_right (not_or.2 ⟨hescaped, hopen⟩), .inl⟩

/-- In front of the quote that closes a value with an escaped quote. -/
theorem insert_of_isQuote_iff_escaped :
    4 ≤ ['\x22', 'a', '\x5c', '\x22', '\x22'].length ∧ isQuote '\x22' = true ∧
      (Line.mk ['\x22', 'a', '\x5c', '\x22', '\x22'] (4 : Nat)).insert '\x22' =
        ⟨['\x22', 'a', '\x5c', '\x22', '\x22'], (4 : Nat) + 1⟩ :=
  have hlength : 4 ≤ ['\x22', 'a', '\x5c', '\x22', '\x22'].length := by decide
  have hcloses : ClosesAt (tokenize ['\x22', 'a', '\x5c', '\x22', '\x22']) '\x22' 4 :=
    ⟨['a', '\x5c', '\x22'], by decide +kernel⟩
  ⟨hlength, rfl, (insert_of_isQuote_iff hlength rfl).1.2 (.inl hcloses)⟩

/-- A quote typed between two quoted values is not put there, though none closes at the cursor. -/
theorem not_forall_insert_of_isQuote :
    ¬ ∀ (s : List Char) (n : Nat) (q : Char), n ≤ s.length → isQuote q = true →
      ((Line.mk s n).insert q = ⟨s, n + 1⟩ ↔ ClosesAt (tokenize s) q n) := by
  intro h
  have hstep : (Line.mk ['\x22', 'a', '\x22', '\x22', 'b', '\x22'] (3 : Nat)).insert '\x22' =
      ⟨['\x22', 'a', '\x22', '\x22', 'b', '\x22'], (3 : Nat) + 1⟩ := by
    decide +kernel
  obtain ⟨content, hat⟩ := (h _ 3 '\x22' (by decide) rfl).1 hstep
  have hopens : tokenAt? (tokenize ['\x22', 'a', '\x22', '\x22', 'b', '\x22']) 3 =
      some (.value (.quoted '\x22' ['b']), 0) := by
    decide +kernel
  simpa using hopens.symm.trans hat

/-! ## Typing a blank -/

/-- **Which blanks are dropped.** -/
theorem besideBlank_iff (hn : n ≤ s.length) :
    (Line.mk s n).besideBlank = true ↔
      (0 < n ∧ IsBlankRunAt (tokenize s) (n - 1) ∨ IsBlankRunAt (tokenize s) n) ∨
        IsQuotedBlankAt (tokenize s) n := by
  have hleft : (lastToken? (s.take n)).any Token.isBlankRun = true ↔
      0 < n ∧ IsBlankRunAt (tokenize s) (n - 1) := by
    cases n with
    | zero => simp [lastToken?]
    | succ i =>
      have hi : i < (textOf (tokenize s)).length := by rwa [textOf_tokenize]
      obtain ⟨t, k, hat⟩ := exists_tokenAt? hi
      rw [lastToken?_take_succ hat, Option.any_some, Token.isBlankRun_take, Nat.add_sub_cancel]
      simp only [Nat.succ_pos, true_and, IsBlankRunAt, hat]
      cases t <;> simp [Token.isBlankRun]
  have hright : (firstToken? (s.drop n)).any Token.isBlankRun = true ↔
      ∃ c, (textOf (tokenize s))[n]? = some c ∧ isBlank c = true := by
    rw [textOf_tokenize, ← List.head?_drop]
    cases s.drop n with
    | nil => simp [firstToken?]
    | cons c rest =>
      simp [firstToken?]
  rw [besideBlank, start_eq_take hn, rest_eq_drop hn, Bool.or_eq_true, hleft, hright,
    blank_iff (isCanonical_tokenize s), or_assoc]

/-- **What a typed blank does.**  It is dropped exactly if the character in front of the cursor or
the one at the cursor belongs to a run of blanks, or if a blank between quotes is at the cursor;
else it is put at the cursor.  So only a run of blanks keeps it out, except at the latter. -/
theorem insert_of_isBlank_iff (hn : n ≤ s.length) (hw : isBlank w = true) :
    let beside : Prop :=
      0 < n ∧ IsBlankRunAt (tokenize s) (n - 1) ∨ IsBlankRunAt (tokenize s) n
    ((Line.mk s n).insert w = ⟨s, n⟩ ↔ beside ∨ IsQuotedBlankAt (tokenize s) n) ∧
      (¬ (beside ∨ IsQuotedBlankAt (tokenize s) n) →
        (Line.mk s n).insert w = ⟨s.take n ++ w :: s.drop n, n + 1⟩) ∧
      (((Line.mk s n).insert w = ⟨s, n⟩ ↔ beside) ↔ ¬ IsQuotedBlankAt (tokenize s) n) := by
  intro beside
  have hbeside : (Line.mk s n).besideBlank = true ↔ beside ∨ IsQuotedBlankAt (tokenize s) n :=
    besideBlank_iff hn
  have hquote : ¬ isQuote w = true := by simp [isQuote_eq_false_of_isBlank hw]
  have hput : ¬ (beside ∨ IsQuotedBlankAt (tokenize s) n) →
      (Line.mk s n).insert w = ⟨s.take n ++ w :: s.drop n, n + 1⟩ := by
    intro h
    rw [insert, if_neg hquote, if_pos hw, if_neg (mt hbeside.1 h), put_of_le hn]
  have hdrop : (Line.mk s n).insert w = ⟨s, n⟩ ↔ beside ∨ IsQuotedBlankAt (tokenize s) n := by
    constructor
    · intro h
      by_contra hnot
      have hcursor := congrArg Line.cursor ((hput hnot).symm.trans h)
      simp only at hcursor
      omega
    · intro h
      rw [insert, if_neg hquote, if_pos hw, if_pos (hbeside.2 h)]
  have hapart : IsQuotedBlankAt (tokenize s) n → ¬ beside := by
    rintro hquoted (⟨hpos, hrun⟩ | hrun)
    · obtain ⟨i, rfl⟩ := Nat.exists_eq_succ_of_ne_zero hpos.ne'
      exact hquoted.not_isBlankRunAt_pred hrun
    · exact hquoted.not_isBlankRunAt hrun
  refine ⟨hdrop, hput, ?_⟩
  rw [hdrop]
  constructor
  · intro h hquoted
    exact hapart hquoted (h.1 (.inr hquoted))
  · intro hquoted
    exact ⟨fun h => h.resolve_right hquoted, .inl⟩

/-- In front of a run of blanks, right behind a quoted value. -/
theorem insert_of_isBlank_iff_behind_quoted :
    3 ≤ ['\x22', 'a', '\x22', ' ', 'b'].length ∧ isBlank '\t' = true ∧
      (Line.mk ['\x22', 'a', '\x22', ' ', 'b'] (3 : Nat)).insert '\t' =
        ⟨['\x22', 'a', '\x22', ' ', 'b'], (3 : Nat)⟩ :=
  have hlength : 3 ≤ ['\x22', 'a', '\x22', ' ', 'b'].length := by decide
  have hrun : IsBlankRunAt (tokenize ['\x22', 'a', '\x22', ' ', 'b']) 3 :=
    ⟨[' '], 0, by decide +kernel⟩
  ⟨hlength, rfl, (insert_of_isBlank_iff hlength rfl).1.2 (.inl (.inr hrun))⟩

/-- A blank typed in front of a blank between quotes is dropped, though no run of blanks is there. -/
theorem not_forall_insert_of_isBlank :
    ¬ ∀ (s : List Char) (n : Nat) (w : Char), n ≤ s.length → isBlank w = true →
      ((Line.mk s n).insert w = ⟨s, n⟩ ↔
        0 < n ∧ IsBlankRunAt (tokenize s) (n - 1) ∨ IsBlankRunAt (tokenize s) n) := by
  intro h
  have hdrop : (Line.mk ['\x22', 'a', ' ', 'b', '\x22'] (2 : Nat)).insert ' ' =
      ⟨['\x22', 'a', ' ', 'b', '\x22'], (2 : Nat)⟩ := by
    decide +kernel
  obtain ⟨-, run, k, hat⟩ | ⟨run, k, hat⟩ := (h _ 2 ' ' (by decide) rfl).1 hdrop
  · have hquoted : tokenAt? (tokenize ['\x22', 'a', ' ', 'b', '\x22']) 1 =
        some (.value (.quoted '\x22' ['a', ' ', 'b']), 1) := by
      decide +kernel
    simpa using hquoted.symm.trans hat
  · have hquoted : tokenAt? (tokenize ['\x22', 'a', ' ', 'b', '\x22']) 2 =
        some (.value (.quoted '\x22' ['a', ' ', 'b']), 2) := by
      decide +kernel
    simpa using hquoted.symm.trans hat

end Line

end ShellLine
