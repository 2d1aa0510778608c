import ShellLine.Proofs.Lex.Tokenize

/-!
# Proofs/Lex/Append — what text behind a line does to its tokens

Whether a token ends in front of some text depends on the first character of that text alone.  So
text behind a line can go on with the last token of the line, but no other token notices it
(`tokenize_of_tokenize_concat`).  One more character either leaves the last token as it is, or makes
one longer token with it (`tokenize_text_concat`).
-/

namespace ShellLine

/-! ## All tokens but the last stay -/

/-- A token that ends in front of some text does so whatever stands behind that text. -/
theorem Token.EndsBefore.append {t : Token} {rest : List Char} (hne : rest ≠ [])
    (h : t.EndsBefore rest) (more : List Char) : t.EndsBefore (rest ++ more) := by
  obtain ⟨d, rest, rfl⟩ := List.exists_cons_of_ne_nil hne
  rcases t with (w | ⟨q, content⟩ | ⟨q, content⟩) | run
  · exact h
  · trivial
  · exact absurd h (by simp [Token.EndsBefore, Value.EndsBefore])
  · exact h

/-- **Text behind a line touches only its last token.** -/
theorem tokenize_of_tokenize_concat {s : List Char} {ts : List Token} {t : Token}
    (h : tokenize s = ts ++ [t]) (more : List Char) :
    tokenize (s ++ more) = ts ++ tokenize (t.text ++ more) := by
  induction ts generalizing s with
  | nil =>
    have hs := textOf_tokenize s
    rw [h] at hs
    rw [← hs]
    simp
  | cons u ts ih =>
    cases s with
    | nil => simp at h
    | cons c s =>
      rw [tokenize_cons, List.cons_append, List.cons.injEq] at h
      obtain ⟨rfl, hrest⟩ := h
      have hne : (Token.read c s).2 ≠ [] := by
        intro hnil
        simp [hnil] at hrest
      have hread : Token.read c (s ++ more) = ((Token.read c s).1, (Token.read c s).2 ++ more) := by
        refine Token.read_eq_iff.2
          ⟨isCanonical_read c s, (endsBefore_read c s).append hne more, ?_⟩
        rw [← List.append_assoc, Token.text_read, List.cons_append]
      rw [List.cons_append, tokenize_cons, hread, ih hrest, List.cons_append]

/-! ## One more character -/

/-- One more character keeps a text escaped, unless it is the quote and follows no backslash. -/
theorem escapedAfter_concat {q c : Char} {before : Option Char} {s : List Char} :
    EscapedAfter q before (s ++ [c]) ↔
      EscapedAfter q before s ∧ (c = q → s.getLast?.or before = some '\x5c') := by
  induction s generalizing before with
  | nil => simp
  | cons d s ih =>
    rw [List.cons_append, escapedAfter_cons, escapedAfter_cons, ih, getLast?_cons_or, and_assoc]

/-- An unclosed quoted text takes any character: the one that closes it, or one more. -/
theorem Value.IsCanonical.exists_unclosed_concat {q : Char} {content : List Char}
    (h : (Value.unclosed q content).IsCanonical) (c : Char) :
    ∃ v : Value, v.IsCanonical ∧ v.text = q :: content ++ [c] := by
  obtain ⟨hq, hesc⟩ := h
  by_cases hclose : c = q ∧ content.getLast? ≠ some '\x5c'
  · obtain ⟨rfl, hlast⟩ := hclose
    exact ⟨.quoted c content, ⟨hq, hesc, hlast⟩, rfl⟩
  · refine ⟨.unclosed q (content ++ [c]), ⟨hq, escapedAfter_concat.2 ⟨hesc, ?_⟩⟩, rfl⟩
    intro hc
    simpa [hc] using hclose

/-- A token that does not end in front of a character makes a longer one with it, of the same
kind. -/
theorem Token.IsCanonical.exists_concat {t : Token} (ht : t.IsCanonical) {c : Char}
    (h : ¬ t.EndsBefore [c]) :
    ∃ u : Token, u.IsCanonical ∧ u.isBlankRun = t.isBlankRun ∧ u.text = t.text ++ [c] := by
  rcases t with (w | ⟨q, content⟩ | ⟨q, content⟩) | run
  · have hc : isQuote c = false ∧ isBlank c = false := by
      simpa [EndsBefore, Value.EndsBefore, endsWord] using h
    refine ⟨.value (.word (w ++ [c])), ⟨by simp, ?_⟩, rfl, rfl⟩
    exact List.forall_mem_append.2 ⟨ht.2, by simpa using hc⟩
  · exact absurd trivial h
  · obtain ⟨v, hv, htext⟩ := Value.IsCanonical.exists_unclosed_concat ht c
    exact ⟨.value v, hv, rfl, htext⟩
  · have hc : isBlank c = true := by simpa [EndsBefore] using h
    refine ⟨.blank (run ++ [c]), ⟨by simp, ?_⟩, rfl, rfl⟩
    exact List.forall_mem_append.2 ⟨ht.2, by simpa using hc⟩

/-- **One more character behind a token** stands by itself, or goes on with the token. -/
theorem tokenize_text_concat {t : Token} (ht : t.IsCanonical) (c : Char) :
    t.EndsBefore [c] ∧ tokenize (t.text ++ [c]) = t :: tokenize [c] ∨
      ¬ t.EndsBefore [c] ∧ ∃ u : Token, tokenize (t.text ++ [c]) = [u] ∧
        u.isBlankRun = t.isBlankRun ∧ u.text = t.text ++ [c] := by
  by_cases hend : t.EndsBefore [c]
  · refine .inl ⟨hend, ?_⟩
    obtain ⟨d, s, hs⟩ := List.exists_cons_of_ne_nil ht.text_ne_nil
    have hread : Token.read d (s ++ [c]) = (t, [c]) :=
      Token.read_eq_iff.2 ⟨ht, hend, by rw [hs, List.cons_append]⟩
    rw [hs, List.cons_append, tokenize_cons, hread]
  · obtain ⟨u, hu, hkind, htext⟩ := ht.exists_concat hend
    refine .inr ⟨hend, u, ?_, hkind, htext⟩
    have hlist : IsCanonical [u] := ⟨by simpa using hu, .singleton u⟩
    rw [← htext]
    simpa using tokenize_textOf hlist

end ShellLine
