import ShellLine.Proofs.Lex.Cuts

/-!
# Proofs/Lex/Places — which token a character belongs to

Each character of a line belongs to one token, and stands at one place of it: `tokenAt?` finds both.

* `tokenAt?_eq_some_iff` ties it to the tokens in front and behind, and `tokenAt?_succ` says what
  the next character belongs to.
* `lastToken?_take_succ` reads the last token left of a cut off the character in front of the cut.
* `ClosesAt`, `IsEscapedAt` and `ReopensAt` are the three places of a quote behind a character of a
  value in that quote (`quote_succ_iff`); `IsBlankRunAt` and `IsQuotedBlankAt` are the two places of
  a blank (`blank_iff`).
-/

namespace ShellLine

/-! ## The token around a character -/

/-- The token that the character at place `i` belongs to, with how many characters of the token
stand in front of it. -/
def tokenAt? : List Token → Nat → Option (Token × Nat)
  | [], _ => none
  | t :: ts, i => if i < t.text.length then some (t, i) else tokenAt? ts (i - t.text.length)

section TokenAt

variable {ts : List Token} {t : Token} {i k : Nat}

/-- Tokens in front move a place by the length of their text. -/
theorem tokenAt?_append (front : List Token) (i : Nat) :
    tokenAt? (front ++ ts) ((textOf front).length + i) = tokenAt? ts i := by
  induction front with
  | nil => rw [List.nil_append, textOf_nil, List.length_nil, Nat.zero_add]
  | cons u front ih =>
    have hlength : (textOf (u :: front)).length + i =
        u.text.length + ((textOf front).length + i) := by
      rw [textOf_cons, List.length_append, Nat.add_assoc]
    rw [hlength, List.cons_append, tokenAt?, if_neg (by omega), Nat.add_sub_cancel_left, ih]

theorem tokenAt?_append_cons (front behind : List Token) (hk : k < t.text.length) :
    tokenAt? (front ++ t :: behind) ((textOf front).length + k) = some (t, k) := by
  rw [tokenAt?_append, tokenAt?, if_pos hk]

theorem exists_append_of_tokenAt? (h : tokenAt? ts i = some (t, k)) :
    ∃ front behind, ts = front ++ t :: behind ∧ i = (textOf front).length + k ∧
      k < t.text.length := by
  induction ts generalizing i with
  | nil => cases h
  | cons u ts ih =>
    rw [tokenAt?] at h
    split at h
    next hlt =>
      obtain ⟨rfl, rfl⟩ : u = t ∧ i = k := by simpa using h
      exact ⟨[], ts, rfl, (Nat.zero_add i).symm, hlt⟩
    next hge =>
      obtain ⟨front, behind, rfl, hi, hk⟩ := ih h
      refine ⟨u :: front, behind, rfl, ?_, hk⟩
      rw [textOf_cons, List.length_append]
      omega

/-- **A character belongs to the token whose text begins at most so far in front of it.** -/
theorem tokenAt?_eq_some_iff :
    tokenAt? ts i = some (t, k) ↔
      ∃ front behind, ts = front ++ t :: behind ∧ i = (textOf front).length + k ∧
        k < t.text.length := by
  refine ⟨exists_append_of_tokenAt?, ?_⟩
  rintro ⟨front, behind, rfl, rfl, hk⟩
  exact tokenAt?_append_cons front behind hk

/-- Each character of a text belongs to a token. -/
theorem exists_tokenAt? (h : i < (textOf ts).length) : ∃ t k, tokenAt? ts i = some (t, k) := by
  induction ts generalizing i with
  | nil => cases h
  | cons u ts ih =>
    rw [tokenAt?]
    split
    next => exact ⟨u, i, rfl⟩
    next hge =>
      rw [textOf_cons, List.length_append] at h
      exact ih (by omega)

theorem getElem?_of_tokenAt? (h : tokenAt? ts i = some (t, k)) : (textOf ts)[i]? = t.text[k]? := by
  obtain ⟨front, behind, rfl, rfl, hk⟩ := tokenAt?_eq_some_iff.1 h
  rw [textOf_append, textOf_cons, List.getElem?_append_right (by omega), Nat.add_sub_cancel_left,
    List.getElem?_append_left hk]

theorem mem_of_tokenAt? (h : tokenAt? ts i = some (t, k)) : t ∈ ts := by
  obtain ⟨front, behind, rfl, -, -⟩ := tokenAt?_eq_some_iff.1 h
  exact List.mem_append_right _ List.mem_cons_self

theorem lt_length_of_tokenAt? (h : tokenAt? ts i = some (t, k)) : i < (textOf ts).length := by
  obtain ⟨front, behind, rfl, rfl, hk⟩ := tokenAt?_eq_some_iff.1 h
  rw [textOf_append, textOf_cons, List.length_append, List.length_append]
  omega

/-- In front of a character that is not the first of its token stands one of the same token. -/
theorem tokenAt?_of_succ (h : tokenAt? ts (i + 1) = some (t, k + 1)) :
    tokenAt? ts i = some (t, k) := by
  obtain ⟨front, behind, hts, hi, hk⟩ := tokenAt?_eq_some_iff.1 h
  exact tokenAt?_eq_some_iff.2 ⟨front, behind, hts, Nat.succ.inj hi, Nat.lt_of_succ_lt hk⟩

/-- Behind a character that is not the last of its token stands one of the same token. -/
theorem tokenAt?_succ_of_lt (h : tokenAt? ts i = some (t, k)) (hk : k + 1 < t.text.length) :
    tokenAt? ts (i + 1) = some (t, k + 1) := by
  obtain ⟨front, behind, hts, hi, -⟩ := tokenAt?_eq_some_iff.1 h
  exact tokenAt?_eq_some_iff.2 ⟨front, behind, hts, congrArg (· + 1) hi, hk⟩

/-- Only the first character of a token stands at the start of the text. -/
theorem tokenAt?_zero_ne_succ : tokenAt? ts 0 ≠ some (t, k + 1) := by
  intro h
  obtain ⟨front, behind, -, hi, -⟩ := tokenAt?_eq_some_iff.1 h
  cases hi

/-- **The next character** belongs to the same token, or begins one that may stand behind it. -/
theorem tokenAt?_succ (hts : IsCanonical ts) (h : tokenAt? ts i = some (t, k)) {u : Token} {j : Nat}
    (hsucc : tokenAt? ts (i + 1) = some (u, j)) :
    u = t ∧ j = k + 1 ∨ k + 1 = t.text.length ∧ t.MayPrecede u ∧ j = 0 := by
  obtain ⟨front, behind, rfl, rfl, hk⟩ := tokenAt?_eq_some_iff.1 h
  by_cases hlast : k + 1 < t.text.length
  · have hsame := (tokenAt?_append_cons front behind hlast).symm.trans hsucc
    exact .inl (by simpa [eq_comm] using hsame)
  · have hend : k + 1 = t.text.length := by omega
    have hplace : (textOf front).length + k + 1 = (textOf (front ++ [t])).length + 0 := by
      rw [textOf_append, textOf_cons, textOf_nil, List.append_nil, List.length_append]
      omega
    cases behind with
    | nil =>
      have hlt := lt_length_of_tokenAt? hsucc
      omega
    | cons v behind =>
      have hv : 0 < v.text.length := List.length_pos_iff.2 (hts.each v (by simp)).text_ne_nil
      have hnext := tokenAt?_append_cons (front ++ [t]) behind hv
      rw [List.append_assoc, List.singleton_append, ← hplace] at hnext
      obtain ⟨rfl, rfl⟩ : v = u ∧ 0 = j := by simpa using hnext.symm.trans hsucc
      have hchain := (List.isChain_append.1 hts.chain).2.1
      exact .inr ⟨hend, (List.isChain_cons_cons.1 hchain).1, rfl⟩

end TokenAt

/-! ## The token left of a cut -/

/-- **The last token left of a cut is the token around it, up to the cut.** -/
theorem lastToken?_take_succ {s : List Char} {i k : Nat} {t : Token}
    (h : tokenAt? (tokenize s) i = some (t, k)) :
    lastToken? (s.take (i + 1)) = some (t.take (k + 1)) := by
  obtain ⟨front, behind, htokens, rfl, hk⟩ := tokenAt?_eq_some_iff.1 h
  rw [lastToken?, Nat.add_assoc, tokenize_take htokens (Nat.succ_pos k) hk, List.getLast?_concat]

/-! ## The characters of a quoted value -/

/-- In front of an escaped quote stands a backslash. -/
theorem Escaped.getElem?_pred {q : Char} {s : List Char} (h : Escaped q s) {k : Nat}
    (hk : s[k]? = some q) : ∃ j, k = j + 1 ∧ s[j]? = some '\x5c' := by
  obtain ⟨hlt, hq⟩ := List.getElem?_eq_some_iff.1 hk
  have hlast := h (s.take k) (s.drop (k + 1)) (by
    rw [← hq, ← List.drop_eq_getElem_cons hlt, List.take_append_drop])
  cases k with
  | zero => simp at hlast
  | succ j =>
    have hj : s[j]? = some s[j] := List.getElem?_eq_getElem (Nat.lt_of_succ_lt hlt)
    refine ⟨j, rfl, ?_⟩
    simpa [List.getLast?_take, hj] using hlast

namespace Value

variable {v : Value} {q c : Char} {k : Nat}

theorem head_text_of_quote? (hv : v.quote? = some q) : v.text[0]? = some q := by
  rcases v with w | ⟨q', content⟩ | ⟨q', content⟩
  · cases hv
  · exact hv
  · exact hv

theorem getElem?_text_of_content (hv : v.quote? = some q) (h : v.content[k]? = some c) :
    v.text[k + 1]? = some c := by
  rcases v with w | ⟨q', content⟩ | ⟨q', content⟩
  · cases hv
  · have hk : k < content.length := (List.getElem?_eq_some_iff.1 h).1
    rw [text, List.cons_append, List.getElem?_cons_succ, List.getElem?_append_left hk]
    exact h
  · exact h

/-- Behind the opening quote stands the content, and then the closing quote if there is one. -/
theorem content_or_close (hv : v.quote? = some q) (h : v.text[k + 1]? = some c) :
    v.content[k]? = some c ∨ c = q ∧ v = quoted q v.content ∧ k = v.content.length := by
  rcases v with w | ⟨q', content⟩ | ⟨q', content⟩
  · cases hv
  · obtain rfl : q' = q := by simpa [quote?] using hv
    rw [text, List.cons_append, List.getElem?_cons_succ] at h
    by_cases hk : k < content.length
    · rw [List.getElem?_append_left hk] at h
      exact .inl h
    · rw [List.getElem?_append_right (by omega), List.getElem?_singleton] at h
      split at h
      next hlast =>
        obtain rfl : q' = c := by simpa using h
        have hk : k = content.length := by omega
        exact .inr ⟨rfl, rfl, hk⟩
      next => cases h
  · exact .inl h

theorem IsCanonical.isQuote_of_quote? (hv : v.IsCanonical) (h : v.quote? = some q) :
    isQuote q = true := by
  rcases v with w | ⟨q', content⟩ | ⟨q', content⟩
  · cases h
  · obtain rfl : q' = q := by simpa [quote?] using h
    exact hv.1
  · obtain rfl : q' = q := by simpa [quote?] using h
    exact hv.1

theorem IsCanonical.escaped (hv : v.IsCanonical) (h : v.quote? = some q) :
    Escaped q v.content := by
  rcases v with w | ⟨q', content⟩ | ⟨q', content⟩
  · cases h
  · obtain rfl : q' = q := by simpa [quote?] using h
    exact hv.2.1
  · obtain rfl : q' = q := by simpa [quote?] using h
    exact hv.2

/-- A quote or a blank of a value that is not one of the quotes around it stands between them. -/
theorem IsCanonical.exists_content_of_endsWord (hv : v.IsCanonical) (h : v.text[k]? = some c)
    (hend : endsWord c = true) (hne : v.quote? ≠ some c) :
    ∃ q j, v.quote? = some q ∧ k = j + 1 ∧ v.content[j]? = some c := by
  cases hquote : v.quote? with
  | none =>
    rcases v with w | ⟨q, content⟩ | ⟨q, content⟩
    · have hplain := hv.2 c (List.mem_of_getElem? h)
      simp [endsWord, hplain] at hend
    · cases hquote
    · cases hquote
  | some q =>
    have hcq : c ≠ q := by
      rintro rfl
      exact hne hquote
    cases k with
    | zero => exact absurd (Option.some.inj (h.symm.trans (head_text_of_quote? hquote))) hcq
    | succ j =>
      obtain hc | ⟨hclose, -⟩ := content_or_close hquote h
      · exact ⟨q, j, rfl, rfl, hc⟩
      · exact absurd hclose hcq

/-- A blank of a value stands between its quotes. -/
theorem IsCanonical.exists_content_of_isBlank (hv : v.IsCanonical) (h : v.text[k]? = some c)
    (hblank : isBlank c = true) : ∃ q j, v.quote? = some q ∧ k = j + 1 ∧ v.content[j]? = some c := by
  refine hv.exists_content_of_endsWord h (by simp [endsWord, hblank]) ?_
  intro hquote
  simp [isBlank_eq_false_of_isQuote (hv.isQuote_of_quote? hquote)] at hblank

end Value

namespace Token

/-- A token that begins with a quote is a value in that quote. -/
theorem IsCanonical.exists_value_of_head {t : Token} (ht : t.IsCanonical) {q : Char}
    (hq : isQuote q = true) (h : t.text[0]? = some q) : ∃ v, t = value v ∧ v.quote? = some q := by
  rcases t with (w | ⟨q', content⟩ | ⟨q', content⟩) | run
  · have hplain := (ht.2 q (List.mem_of_getElem? h)).1
    simp [hq] at hplain
  · exact ⟨_, rfl, h⟩
  · exact ⟨_, rfl, h⟩
  · have hblank := ht.2 q (List.mem_of_getElem? h)
    simp [isBlank_eq_false_of_isQuote hq] at hblank

/-- A token in quotes that stands in front of another is closed. -/
theorem MayPrecede.eq_quoted {t u : Token} (h : t.MayPrecede u) {q : Char}
    (hq : t.quote? = some q) : ∃ content, t = value (.quoted q content) := by
  rcases t with (w | ⟨q', content⟩ | ⟨q', content⟩) | run
  · cases hq
  · obtain rfl : q' = q := by simpa [quote?, Value.quote?] using hq
    exact ⟨content, rfl⟩
  · exact h.elim
  · cases hq

/-- A token is a run of blanks exactly if its first character is a blank. -/
@[simp] theorem isBlankRun_read (c : Char) (s : List Char) :
    (Token.read c s).1.isBlankRun = isBlank c := by
  rw [Token.read]
  cases isBlank c <;> rfl

end Token

/-! ## What stands at a place -/

section Places

variable (ts : List Token)

/-- Is the closing quote of a value in the quote `q` at place `i`? -/
def ClosesAt (q : Char) (i : Nat) : Prop :=
  ∃ content, tokenAt? ts i = some (.value (.quoted q content), content.length + 1)

/-- Does a value in the quote `q` have a `c` behind its opening quote and in front of its closing
one, at place `i`? -/
def IsWithinAt (q c : Char) (i : Nat) : Prop :=
  ∃ v k, tokenAt? ts i = some (.value v, k + 1) ∧ v.quote? = some q ∧ v.content[k]? = some c

/-- Is a `q` at place `i` among the content of a value in that quote?  A canonical value has it
behind a backslash there. -/
def IsEscapedAt (q : Char) (i : Nat) : Prop := IsWithinAt ts q q i

/-- Does the quote `q` open a value at place `i`, right behind a value that it closes? -/
def ReopensAt (q : Char) (i : Nat) : Prop :=
  (∃ v, tokenAt? ts i = some (.value v, 0) ∧ v.quote? = some q) ∧ ∃ j, i = j + 1 ∧ ClosesAt ts q j

/-- Does the character at place `i` belong to a run of blanks? -/
def IsBlankRunAt (i : Nat) : Prop := ∃ run k, tokenAt? ts i = some (.blank run, k)

/-- Is a blank at place `i` that stands between quotes? -/
def IsQuotedBlankAt (i : Nat) : Prop := ∃ q c, isBlank c = true ∧ IsWithinAt ts q c i

end Places

section Places

variable {ts : List Token} {t : Token} {q c : Char} {i k : Nat}

theorem ClosesAt.getElem? (h : ClosesAt ts q i) : (textOf ts)[i]? = some q := by
  obtain ⟨content, hat⟩ := h
  rw [getElem?_of_tokenAt? hat]
  simp [Token.text, Value.text]

theorem ClosesAt.isQuote (hts : IsCanonical ts) (h : ClosesAt ts q i) : isQuote q = true := by
  obtain ⟨content, hat⟩ := h
  exact (hts.each _ (mem_of_tokenAt? hat)).1

theorem IsWithinAt.getElem? (h : IsWithinAt ts q c i) : (textOf ts)[i]? = some c := by
  obtain ⟨v, k, hat, hv, hc⟩ := h
  rw [getElem?_of_tokenAt? hat]
  exact Value.getElem?_text_of_content hv hc

/-- An escaped quote stands behind a backslash. -/
theorem IsEscapedAt.getElem?_pred (hts : IsCanonical ts) (h : IsEscapedAt ts q (i + 1)) :
    (textOf ts)[i]? = some '\x5c' := by
  obtain ⟨v, k, hat, hv, hc⟩ := h
  have hcanonical : v.IsCanonical := hts.each _ (mem_of_tokenAt? hat)
  obtain ⟨j, rfl, hj⟩ := (hcanonical.escaped hv).getElem?_pred hc
  rw [getElem?_of_tokenAt? (tokenAt?_of_succ hat)]
  exact Value.getElem?_text_of_content hv hj

theorem ReopensAt.getElem? (h : ReopensAt ts q i) : (textOf ts)[i]? = some q := by
  obtain ⟨⟨v, hat, hv⟩, -⟩ := h
  rw [getElem?_of_tokenAt? hat]
  exact Value.head_text_of_quote? hv

theorem IsEscapedAt.not_closesAt (h : IsEscapedAt ts q i) : ¬ ClosesAt ts q i := by
  rintro ⟨content, hat⟩
  obtain ⟨v, k, hat', -, hc⟩ := h
  obtain ⟨rfl, rfl⟩ : .quoted q content = v ∧ content.length = k := by
    simpa using hat.symm.trans hat'
  simp [Value.content] at hc

theorem ReopensAt.not_closesAt (h : ReopensAt ts q i) : ¬ ClosesAt ts q i := by
  rintro ⟨content, hat⟩
  obtain ⟨⟨v, hat', -⟩, -⟩ := h
  simpa using hat.symm.trans hat'

/-- **A quote behind a character of a value in that quote** closes the value, is escaped in it, or
opens the next. -/
theorem quote_succ_iff (hts : IsCanonical ts) (h : tokenAt? ts i = some (t, k)) :
    t.quote? = some q ∧ (textOf ts)[i + 1]? = some q ↔
      ClosesAt ts q (i + 1) ∨ IsEscapedAt ts q (i + 1) ∨ ReopensAt ts q (i + 1) := by
  constructor
  · rintro ⟨hq, hnext⟩
    obtain ⟨u, j, hsucc⟩ := exists_tokenAt? (List.getElem?_eq_some_iff.1 hnext).1
    rw [getElem?_of_tokenAt? hsucc] at hnext
    obtain ⟨rfl, rfl⟩ | ⟨hlast, hmay, rfl⟩ := tokenAt?_succ hts h hsucc
    · cases u with
      | blank run => cases hq
      | value v =>
        obtain hc | ⟨-, hv, rfl⟩ := Value.content_or_close hq hnext
        · exact .inr (.inl ⟨v, k, hsucc, hq, hc⟩)
        · rw [hv] at hsucc
          exact .inl ⟨_, hsucc⟩
    · obtain ⟨content, rfl⟩ := hmay.eq_quoted hq
      have hquote : isQuote q = true := (hts.each _ (mem_of_tokenAt? h)).1
      obtain ⟨v, rfl, hv⟩ :=
        (hts.each u (mem_of_tokenAt? hsucc)).exists_value_of_head hquote hnext
      have hk : k = content.length + 1 := by simpa [Token.text, Value.text] using hlast
      exact .inr (.inr ⟨⟨v, hsucc, hv⟩, i, rfl, content, hk ▸ h⟩)
  · rintro (hclose | hescaped | hopen)
    · refine ⟨?_, hclose.getElem?⟩
      obtain ⟨content, hsucc⟩ := hclose
      obtain ⟨rfl, -⟩ := Prod.mk.inj (Option.some.inj ((tokenAt?_of_succ hsucc).symm.trans h))
      rfl
    · refine ⟨?_, hescaped.getElem?⟩
      obtain ⟨v, j, hsucc, hv, -⟩ := hescaped
      obtain ⟨rfl, -⟩ := Prod.mk.inj (Option.some.inj ((tokenAt?_of_succ hsucc).symm.trans h))
      exact hv
    · refine ⟨?_, hopen.getElem?⟩
      obtain ⟨-, j, hj, content, hat⟩ := hopen
      obtain rfl : i = j := Nat.succ.inj hj
      obtain ⟨rfl, -⟩ := Prod.mk.inj (Option.some.inj (hat.symm.trans h))
      rfl

/-- **A blank** belongs to a run of blanks, or stands between quotes. -/
theorem blank_iff (hts : IsCanonical ts) (i : Nat) :
    (∃ c, (textOf ts)[i]? = some c ∧ isBlank c = true) ↔
      IsBlankRunAt ts i ∨ IsQuotedBlankAt ts i := by
  constructor
  · rintro ⟨c, hc, hblank⟩
    obtain ⟨t, k, hat⟩ := exists_tokenAt? (List.getElem?_eq_some_iff.1 hc).1
    rw [getElem?_of_tokenAt? hat] at hc
    cases t with
    | blank run => exact .inl ⟨run, k, hat⟩
    | value v =>
      have hv : v.IsCanonical := hts.each _ (mem_of_tokenAt? hat)
      obtain ⟨q, j, hq, rfl, hj⟩ := hv.exists_content_of_isBlank hc hblank
      exact .inr ⟨q, c, hblank, v, j, hat, hq, hj⟩
  · rintro (⟨run, k, hat⟩ | ⟨q, c, hblank, hwithin⟩)
    · obtain ⟨-, -, -, -, hk⟩ := tokenAt?_eq_some_iff.1 hat
      have hrun : (Token.blank run).IsCanonical := hts.each _ (mem_of_tokenAt? hat)
      refine ⟨run[k], ?_, hrun.2 _ (List.getElem_mem hk)⟩
      rw [getElem?_of_tokenAt? hat]
      exact List.getElem?_eq_getElem hk
    · exact ⟨c, hwithin.getElem?, hblank⟩

theorem IsQuotedBlankAt.not_isBlankRunAt (h : IsQuotedBlankAt ts i) : ¬ IsBlankRunAt ts i := by
  rintro ⟨run, j, hat⟩
  obtain ⟨q, c, -, v, k, hat', -⟩ := h
  simpa using hat.symm.trans hat'

/-- In front of a blank between quotes stands a character of the same value. -/
theorem IsQuotedBlankAt.not_isBlankRunAt_pred (h : IsQuotedBlankAt ts (i + 1)) :
    ¬ IsBlankRunAt ts i := by
  rintro ⟨run, j, hat⟩
  obtain ⟨q, c, -, v, k, hat', -⟩ := h
  simpa using hat.symm.trans (tokenAt?_of_succ hat')

end Places

end ShellLine
