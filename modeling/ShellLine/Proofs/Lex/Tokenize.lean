import ShellLine.Lex.Reader
import ShellLine.Proofs.Lex.Canonical

/-!
# Proofs/Lex/Tokenize — lines are canonical token lists

`tokenize` and `textOf` are inverse to each other between the lines and the canonical token lists:
what a line is split into is canonical (`isCanonical_tokenize`), and a canonical list is what its
text is split into (`tokenize_textOf`).  A reader that takes one token after the other yields the
same tokens and stands behind their text each time (`Reader.nextTokens_eq`).
-/

namespace ShellLine

/-! ## Neighbours -/

/-- **A token may stand in front of another exactly if it ends there.** -/
theorem mayPrecede_iff {t u : Token} (hu : u.IsCanonical) (rest : List Char) :
    t.MayPrecede u ↔ t.EndsBefore (u.text ++ rest) := by
  rcases u with (w | ⟨q, content⟩ | ⟨q, content⟩) | run
  · obtain ⟨c, w, rfl⟩ := List.exists_cons_of_ne_nil hu.1
    obtain ⟨hq, hb⟩ := hu.2 c (by simp)
    rcases t with (_ | _ | _) | _ <;>
      simp [Token.MayPrecede, Token.EndsBefore, Value.EndsBefore, Token.text, Value.text, endsWord,
        hq, hb]
  · have hb := isBlank_eq_false_of_isQuote hu.1
    rcases t with (_ | _ | _) | _ <;>
      simp [Token.MayPrecede, Token.EndsBefore, Value.EndsBefore, Token.text, Value.text, endsWord,
        hu.1, hb]
  · have hb := isBlank_eq_false_of_isQuote hu.1
    rcases t with (_ | _ | _) | _ <;>
      simp [Token.MayPrecede, Token.EndsBefore, Value.EndsBefore, Token.text, Value.text, endsWord,
        hu.1, hb]
  · obtain ⟨c, run, rfl⟩ := List.exists_cons_of_ne_nil hu.1
    have hb := hu.2 c (by simp)
    rcases t with (_ | _ | _) | _ <;>
      simp [Token.MayPrecede, Token.EndsBefore, Value.EndsBefore, Token.text, endsWord, hb]

theorem IsCanonical.tail {t : Token} {ts : List Token} (h : IsCanonical (t :: ts)) :
    IsCanonical ts :=
  ⟨fun u hu => h.each u (by simp [hu]), h.chain.tail⟩

theorem IsCanonical.drop {ts : List Token} (h : IsCanonical ts) (n : Nat) :
    IsCanonical (ts.drop n) :=
  ⟨fun u hu => h.each u (List.mem_of_mem_drop hu), h.chain.drop n⟩

/-- In a canonical list each token ends in front of the text of the tokens behind it. -/
theorem IsCanonical.endsBefore {t : Token} {ts : List Token} (h : IsCanonical (t :: ts)) :
    t.EndsBefore (textOf ts) := by
  cases ts with
  | nil => rcases t with (_ | _ | _) | _ <;> simp [Token.EndsBefore, Value.EndsBefore]
  | cons u ts =>
    rw [textOf_cons, ← mayPrecede_iff (h.each u (by simp))]
    exact (List.isChain_cons_cons.1 h.chain).1

theorem Token.IsCanonical.text_ne_nil {t : Token} (h : t.IsCanonical) : t.text ≠ [] := by
  rcases t with (_ | _ | _) | _
  · exact h.1
  · simp [Token.text, Value.text]
  · simp [Token.text, Value.text]
  · exact h.1

/-! ## The two directions -/

/-- A line is split into canonical tokens, each in front of one it ends before. -/
theorem isCanonical_tokenize (s : List Char) : IsCanonical (tokenize s) := by
  fun_induction tokenize s with
  | case1 => exact ⟨by simp, .nil⟩
  | case2 c s ih =>
    refine ⟨fun t ht => ?_, List.isChain_cons.2 ⟨fun u hu => ?_, ih.chain⟩⟩
    · rcases List.mem_cons.1 ht with rfl | ht
      · exact isCanonical_read c s
      · exact ih.each t ht
    · obtain ⟨us, hus⟩ := List.head?_eq_some_iff.1 hu
      have htext := textOf_tokenize (Token.read c s).2
      rw [hus, textOf_cons] at htext
      rw [mayPrecede_iff (ih.each u (by simp [hus])) (textOf us), htext]
      exact endsBefore_read c s

/-- The text of a canonical list is split into that list. -/
theorem tokenize_textOf : ∀ {ts : List Token}, IsCanonical ts → tokenize (textOf ts) = ts
  | [], _ => tokenize_nil
  | t :: ts, h => by
      have ht := h.each t (by simp)
      obtain ⟨c, s, hs⟩ := List.exists_cons_of_ne_nil ht.text_ne_nil
      have hread : Token.read c (s ++ textOf ts) = (t, textOf ts) :=
        Token.read_eq_iff.2 ⟨ht, h.endsBefore, by simp [hs]⟩
      rw [textOf_cons, hs, List.cons_append, tokenize_cons, hread, tokenize_textOf h.tail]

/-! ## One token at a time -/

namespace Reader

/-- Read the next token `n` times: the tokens that came, and the reader after that. -/
def nextTokens : Nat → Reader → List Token × Reader
  | 0, r => ([], r)
  | n + 1, r =>
    let (t, r) := r.nextToken
    let (ts, r) := nextTokens n r
    (t.toList ++ ts, r)

@[simp] theorem offset_mk (behind ahead : List Char) (latest : Option Char) :
    offset ⟨behind, ahead, latest⟩ = behind.length := rfl

/-- Behind a token the reader has what `Token.read` leaves. -/
theorem advance_text_read (behind : List Char) (c : Char) (s : List Char) (latest : Option Char) :
    (advance (Token.read c s).1.text.length ⟨behind, c :: s, latest⟩).ahead = (Token.read c s).2 ∧
      (advance (Token.read c s).1.text.length ⟨behind, c :: s, latest⟩).offset =
        behind.length + (Token.read c s).1.text.length := by
  have htext := Token.text_read c s
  constructor
  · rw [ahead_advance, ← htext]
    exact List.drop_left
  · refine offset_advance _ _ ?_
    rw [← htext]
    simp

/-- **A reader yields the tokens of what is ahead, and has moved over their text.** -/
theorem nextTokens_eq : ∀ (n : Nat) (r : Reader),
    (nextTokens n r).1 = (tokenize r.ahead).take n ∧
      (nextTokens n r).2.offset = r.offset + (textOf ((tokenize r.ahead).take n)).length
  | 0, r => by simp [nextTokens]
  | n + 1, ⟨behind, [], latest⟩ => by
      obtain ⟨h1, h2⟩ := nextTokens_eq n ⟨behind, [], none⟩
      rw [nextTokens, nextToken_nil]
      simp_all
  | n + 1, ⟨behind, c :: s, latest⟩ => by
      obtain ⟨hahead, hoffset⟩ := advance_text_read behind c s latest
      obtain ⟨h1, h2⟩ := nextTokens_eq n
        (advance (Token.read c s).1.text.length ⟨behind, c :: s, latest⟩)
      rw [hahead] at h1 h2
      rw [nextTokens, nextToken_cons, tokenize_cons, List.take_succ_cons, textOf_cons]
      constructor
      · simp [h1]
      · rw [h2, hoffset, offset_mk, List.length_append, Nat.add_assoc]

end Reader

/-- **Lines and canonical token lists are the same thing.**  A line is split into a canonical list
whose text is the line, and a reader of the line has at each step yielded a beginning of that list
and moved over its text; and a canonical list is what its text is split into. -/
theorem tokenize_bijective :
    (∀ s, IsCanonical (tokenize s) ∧ textOf (tokenize s) = s ∧
      ∀ n, ((Reader.ofText s).nextTokens n).1 = (tokenize s).take n ∧
        ((Reader.ofText s).nextTokens n).2.offset = (textOf ((tokenize s).take n)).length) ∧
      ∀ ts, IsCanonical ts → tokenize (textOf ts) = ts := by
  refine ⟨fun s => ⟨isCanonical_tokenize s, textOf_tokenize s, fun n => ?_⟩,
    fun ts h => tokenize_textOf h⟩
  have h := Reader.nextTokens_eq n (Reader.ofText s)
  simpa [Reader.ofText, Reader.offset] using h

/-- A word, a quoted text with its quote behind a backslash, blanks, and an unclosed quote. -/
theorem tokenize_word_quoted_unclosed :
    IsCanonical [.value (.word ['a']), .value (.quoted '\x22' ['\x5c', '\x22', '\x27']),
        .blank [' ', '\t'], .value (.unclosed '\x27' ['b', ' ', '\x22'])] ∧
      tokenize ['a', '\x22', '\x5c', '\x22', '\x27', '\x22', ' ', '\t', '\x27', 'b', ' ', '\x22'] =
        [.value (.word ['a']), .value (.quoted '\x22' ['\x5c', '\x22', '\x27']),
          .blank [' ', '\t'], .value (.unclosed '\x27' ['b', ' ', '\x22'])] :=
  have h : IsCanonical [.value (.word ['a']), .value (.quoted '\x22' ['\x5c', '\x22', '\x27']),
      .blank [' ', '\t'], .value (.unclosed '\x27' ['b', ' ', '\x22'])] := by decide
  ⟨h, tokenize_bijective.2 _ h⟩

end ShellLine
