import ShellLine.Proofs.Lex.Places

/-!
# Proofs/Lex/QuotePairs — two quotes of a kind side by side

Two equal quotes that stand side by side may be the quotes of an empty value.  They may also be an
escaped quote and the one that closes its value, the quote that closes a value and the one that
opens the next, or two characters of a value in another quote: a false pair.

`quotePair_iff` says that there is nothing else, and `IsEmptyPairAt.not_isFalsePairAt` that the
tokens of a line tell an empty value from a false pair.
-/

namespace ShellLine

section Pairs

variable (ts : List Token)

/-- Are the characters at places `i` and `i + 1` the quotes of an empty value? -/
def IsEmptyPairAt (i : Nat) : Prop := ∃ q, tokenAt? ts i = some (.value (.quoted q []), 0)

/-- Are two quotes of a kind at places `i` and `i + 1` that are not those of an empty value? -/
inductive IsFalsePairAt (i : Nat) : Prop
  | closing (q : Char) (escaped : IsEscapedAt ts q i) (closes : ClosesAt ts q (i + 1))
  | reopening (q : Char) (reopens : ReopensAt ts q (i + 1))
  | foreign (q c : Char) (quote : isQuote c = true) (here : IsWithinAt ts q c i)
      (next : IsWithinAt ts q c (i + 1))

end Pairs

variable {ts : List Token} {t : Token} {c : Char} {i k : Nat}

/-- A quote that belongs to a value in that quote: an equal one behind it closes the value or opens
the next. -/
theorem pair_of_quote? (hts : IsCanonical ts) (hc : isQuote c = true)
    (hat : tokenAt? ts i = some (t, k)) (hquote : t.quote? = some c)
    (hi : (textOf ts)[i]? = some c) (hnext : (textOf ts)[i + 1]? = some c) :
    IsEmptyPairAt ts i ∨ IsFalsePairAt ts i := by
  obtain hcloses | hescaped | hreopens := (quote_succ_iff hts hat).1 ⟨hquote, hnext⟩
  · have ⟨content, hsucc⟩ := hcloses
    have hhere := tokenAt?_of_succ hsucc
    rcases List.eq_nil_or_concat content with rfl | ⟨before, d, rfl⟩
    · exact .inl ⟨c, hhere⟩
    · rw [List.concat_eq_append, List.length_append, List.length_singleton] at hhere
      have hlast : (before ++ [d])[before.length]? = some d := by simp
      have hd : (textOf ts)[i]? = some d := by
        rw [getElem?_of_tokenAt? hhere]
        exact Value.getElem?_text_of_content (v := .quoted c (before ++ [d])) rfl hlast
      obtain rfl : d = c := Option.some.inj (hd.symm.trans hi)
      exact .inr (.closing d ⟨_, before.length, hhere, rfl, hlast⟩ hcloses)
  · have hback := hescaped.getElem?_pred hts
    exact absurd (Option.some.inj (hi.symm.trans hback)) (ne_backslash_of_isQuote hc)
  · exact .inr (.reopening c hreopens)

/-- A quote that belongs to a value in another quote: an equal one behind it belongs to the same
value. -/
theorem pair_of_ne_quote? (hts : IsCanonical ts) (hc : isQuote c = true)
    (hat : tokenAt? ts i = some (t, k)) (hquote : t.quote? ≠ some c)
    (hi : (textOf ts)[i]? = some c) (hnext : (textOf ts)[i + 1]? = some c) :
    IsFalsePairAt ts i := by
  have ht : t.IsCanonical := hts.each t (mem_of_tokenAt? hat)
  rw [getElem?_of_tokenAt? hat] at hi
  cases t with
  | blank run =>
    have hblank := ht.2 c (List.mem_of_getElem? hi)
    simp [isBlank_eq_false_of_isQuote hc] at hblank
  | value v =>
    have hends : endsWord c = true := by simp [endsWord, hc]
    obtain ⟨q, j, hq, rfl, hj⟩ := Value.IsCanonical.exists_content_of_endsWord ht hi hends hquote
    have hcq : c ≠ q := by
      rintro rfl
      exact hquote hq
    obtain ⟨u, m, hsucc⟩ := exists_tokenAt? (List.getElem?_eq_some_iff.1 hnext).1
    obtain ⟨rfl, rfl⟩ | ⟨hlast, hmay, rfl⟩ := tokenAt?_succ hts hat hsucc
    · rw [getElem?_of_tokenAt? hsucc] at hnext
      obtain hcontent | ⟨hclose, -⟩ := Value.content_or_close hq hnext
      · exact .foreign q c hc ⟨v, j, hat, hq, hj⟩ ⟨v, j + 1, hsucc, hq, hcontent⟩
      · exact absurd hclose hcq
    · -- the last character of a closed value is its own quote, not one of its content
      obtain ⟨content, hclosed⟩ := hmay.eq_quoted hq
      obtain rfl : v = .quoted q content := Token.value.inj hclosed
      have hlt : j < content.length := (List.getElem?_eq_some_iff.1 hj).1
      simp only [Token.text, Value.text, List.cons_append, List.length_cons, List.length_append,
        List.length_nil] at hlast
      omega

/-- **Two quotes of a kind side by side** are those of an empty value, or make a false pair. -/
theorem quotePair_iff (hts : IsCanonical ts) (i : Nat) :
    (∃ c, isQuote c = true ∧ (textOf ts)[i]? = some c ∧ (textOf ts)[i + 1]? = some c) ↔
      IsEmptyPairAt ts i ∨ IsFalsePairAt ts i := by
  constructor
  · rintro ⟨c, hc, hi, hnext⟩
    obtain ⟨t, k, hat⟩ := exists_tokenAt? (List.getElem?_eq_some_iff.1 hi).1
    by_cases hquote : t.quote? = some c
    · exact pair_of_quote? hts hc hat hquote hi hnext
    · exact .inr (pair_of_ne_quote? hts hc hat hquote hi hnext)
  · rintro (⟨q, hat⟩ | ⟨q, hescaped, hcloses⟩ | ⟨q, hreopens⟩ | ⟨q, c, hc, hhere, hnext⟩)
    · have hcloses : ClosesAt ts q (i + 1) := ⟨[], tokenAt?_succ_of_lt hat Nat.one_lt_two⟩
      exact ⟨q, hcloses.isQuote hts, getElem?_of_tokenAt? hat, hcloses.getElem?⟩
    · exact ⟨q, hcloses.isQuote hts, hescaped.getElem?, hcloses.getElem?⟩
    · have ⟨_, j, hj, hcloses⟩ := hreopens
      obtain rfl : i = j := Nat.succ.inj hj
      exact ⟨q, hcloses.isQuote hts, hcloses.getElem?, hreopens.getElem?⟩
    · exact ⟨c, hc, hhere.getElem?, hnext.getElem?⟩

/-- The first quote of an empty value opens it; that of a false pair opens nothing. -/
theorem IsEmptyPairAt.not_isFalsePairAt (h : IsEmptyPairAt ts i) : ¬ IsFalsePairAt ts i := by
  obtain ⟨q, hat⟩ := h
  rintro (⟨p, ⟨v, k, hat', -⟩, -⟩ | ⟨p, -, j, hj, content, hat'⟩ | ⟨p, c, -, ⟨v, k, hat', -⟩, -⟩)
  · simpa using hat.symm.trans hat'
  · obtain rfl : i = j := Nat.succ.inj hj
    simpa using hat.symm.trans hat'
  · simpa using hat.symm.trans hat'

end ShellLine
