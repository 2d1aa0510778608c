import ShellLine.Proofs.Lex.Append

/-!
# Proofs/Lex/Cuts — a line cut inside a token

A line that is cut inside a token keeps the tokens in front of it, and of that token what stands
left of the cut: a shorter word, a shorter run of blanks, or a quoted text that does not close.
`Token.take` is that beginning of a token; `tokenize_take` says that the left part is read so, for a
canonical list that breaks off inside a token is canonical (`IsCanonical.concat_take`).

`tokenize_append_and_take` puts both directions together: text behind a line touches only its last
token, and a cut only the token it goes through.
-/

namespace ShellLine

/-! ## The beginning of a token -/

namespace Token

/-- The token that the first `n` characters of a token make.  A quoted text is closed by its last
character only. -/
def take (n : Nat) : Token → Token
  | value (.word w) => value (.word (w.take n))
  | value (.quoted q content) =>
    if n < content.length + 2 then value (.unclosed q (content.take (n - 1)))
    else value (.quoted q content)
  | value (.unclosed q content) => value (.unclosed q (content.take (n - 1)))
  | blank run => blank (run.take n)

variable {n : Nat}

@[simp] theorem isBlankRun_take (n : Nat) (t : Token) : (t.take n).isBlankRun = t.isBlankRun := by
  rcases t with (_ | _ | _) | _
  · rfl
  · rw [take]
    split <;> rfl
  · rfl
  · rfl

@[simp] theorem quote?_take (n : Nat) (t : Token) : (t.take n).quote? = t.quote? := by
  rcases t with (_ | _ | _) | _
  · rfl
  · rw [take]
    split <;> rfl
  · rfl
  · rfl

/-- A quoted text that is cut before its end is not closed. -/
theorem isUnclosed_take (n : Nat) (t : Token) :
    (t.take n).isUnclosed = (t.isUnclosed || t.quote?.isSome && n < t.text.length) := by
  rcases t with (w | ⟨q, content⟩ | ⟨q, content⟩) | run
  · rfl
  · have hlength : (value (.quoted q content)).text.length = content.length + 2 := by
      simp [text, Value.text]
    rw [take, hlength]
    split
    next h => simp [isUnclosed, Value.isUnclosed, quote?, Value.quote?, h]
    next h => simp [isUnclosed, Value.isUnclosed, quote?, Value.quote?, h]
  · rfl
  · rfl

theorem text_take (hn : 0 < n) (t : Token) : (t.take n).text = t.text.take n := by
  obtain ⟨m, rfl⟩ := Nat.exists_eq_succ_of_ne_zero hn.ne'
  rcases t with (w | ⟨q, content⟩ | ⟨q, content⟩) | run
  · rfl
  · rw [take]
    split
    next h =>
      have hm : m ≤ content.length := by omega
      simp [text, Value.text, List.take_append_of_le_length hm]
    next h =>
      have hm : (q :: content ++ [q]).length ≤ m + 1 := by simp; omega
      exact (List.take_of_length_le hm).symm
  · rfl
  · rfl

/-- What may stand in front of a token may stand in front of its beginning. -/
theorem MayPrecede.take {t u : Token} (h : t.MayPrecede u) (n : Nat) : t.MayPrecede (u.take n) := by
  rcases u with (_ | _ | _) | _
  · rcases t with (_ | _ | _) | _ <;> exact h
  · rw [Token.take]
    split <;> rcases t with (_ | _ | _) | _ <;> exact h
  · rcases t with (_ | _ | _) | _ <;> exact h
  · rcases t with (_ | _ | _) | _ <;> exact h

end Token

/-- The beginning of an escaped text is escaped. -/
theorem EscapedAfter.take {q : Char} {before : Option Char} {s : List Char}
    (h : EscapedAfter q before s) (n : Nat) : EscapedAfter q before (s.take n) := by
  intro left right hs
  refine h left (right ++ s.drop n) ?_
  rw [← List.cons_append, ← List.append_assoc, ← hs, List.take_append_drop]

theorem Token.IsCanonical.take {t : Token} (h : t.IsCanonical) {n : Nat} (hn : 0 < n) :
    (t.take n).IsCanonical := by
  rcases t with (w | ⟨q, content⟩ | ⟨q, content⟩) | run
  · refine ⟨?_, fun c hc => h.2 c (List.mem_of_mem_take hc)⟩
    simpa [List.take_eq_nil_iff, hn.ne'] using h.1
  · obtain ⟨hq, hesc, hlast⟩ := h
    rw [Token.take]
    split
    · exact ⟨hq, hesc.take _⟩
    · exact ⟨hq, hesc, hlast⟩
  · exact ⟨h.1, h.2.take _⟩
  · refine ⟨?_, fun c hc => h.2 c (List.mem_of_mem_take hc)⟩
    simpa [List.take_eq_nil_iff, hn.ne'] using h.1

/-- A canonical list that breaks off inside a token is canonical. -/
theorem IsCanonical.concat_take {ts us : List Token} {t : Token} (h : IsCanonical (ts ++ t :: us))
    {n : Nat} (hn : 0 < n) : IsCanonical (ts ++ [t.take n]) := by
  obtain ⟨hfront, -, hnext⟩ := List.isChain_append.1 h.chain
  constructor
  · intro u hu
    obtain hu | hu := List.mem_append.1 hu
    · exact h.each u (List.mem_append_left _ hu)
    · rw [List.mem_singleton.1 hu]
      exact (h.each t (by simp)).take hn
  · refine List.isChain_append.2 ⟨hfront, .singleton _, ?_⟩
    intro u hu v hv
    obtain rfl : t.take n = v := by simpa using hv
    exact (hnext u hu t rfl).take n

/-- **A cut inside a token leaves the tokens in front, and of the token what is left of the cut.** -/
theorem tokenize_take {s : List Char} {ts us : List Token} {t : Token}
    (h : tokenize s = ts ++ t :: us) {k : Nat} (hk : 0 < k) (hle : k ≤ t.text.length) :
    tokenize (s.take ((textOf ts).length + k)) = ts ++ [t.take k] := by
  have hcanonical : IsCanonical (ts ++ [t.take k]) := (h ▸ isCanonical_tokenize s).concat_take hk
  have hs : s = textOf ts ++ (t.text ++ textOf us) := by
    rw [← textOf_cons, ← textOf_append, ← h, textOf_tokenize]
  have hleft : s.take ((textOf ts).length + k) = textOf (ts ++ [t.take k]) := by
    rw [hs, List.take_length_add_append, List.take_append_of_le_length hle, textOf_append,
      textOf_cons, textOf_nil, List.append_nil, Token.text_take hk]
  rw [hleft, tokenize_textOf hcanonical]

/-! ## Both directions -/

/-- **Text behind a line, and a cut through it, touch one token only.**  What is appended goes on
with the last token at most.  What is left of a cut keeps the tokens in front of the cut one, and
ends with a token of its kind: the same text as far as it goes, the same quote, and a quoted text
that is cut before its end is unclosed. -/
theorem tokenize_append_and_take :
    (∀ (s more : List Char) (ts : List Token) (t : Token), tokenize s = ts ++ [t] →
      tokenize (s ++ more) = ts ++ tokenize (t.text ++ more)) ∧
    ∀ (s : List Char) (ts us : List Token) (t : Token) (k : Nat), tokenize s = ts ++ t :: us →
      0 < k → k ≤ t.text.length →
        let left := s.take ((textOf ts).length + k)
        tokenize left = ts ++ [t.take k] ∧ lastToken? left = some (t.take k) ∧
          (t.take k).text = t.text.take k ∧ (t.take k).isBlankRun = t.isBlankRun ∧
          (t.take k).quote? = t.quote? ∧
          (t.take k).isUnclosed = (t.isUnclosed || t.quote?.isSome && k < t.text.length) := by
  constructor
  · intro s more ts t h
    exact tokenize_of_tokenize_concat h more
  · intro s ts us t k h hk hle left
    have hleft : tokenize left = ts ++ [t.take k] := tokenize_take h hk hle
    refine ⟨hleft, ?_, Token.text_take hk t, Token.isBlankRun_take k t, Token.quote?_take k t,
      Token.isUnclosed_take k t⟩
    rw [lastToken?, hleft, List.getLast?_concat]

/-- An unclosed quote that goes on and closes, and a closed one that is cut behind a backslash. -/
theorem tokenize_append_and_take_quoted :
    tokenize (['a', '\x22', 'b'] ++ [' ', '\x22', 'c']) =
        [.value (.word ['a'])] ++ tokenize (['\x22', 'b'] ++ [' ', '\x22', 'c']) ∧
      lastToken? (['a', '\x22', '\x5c', '\x22', '\x22', ' '].take 3) =
        some (.value (.unclosed '\x22' ['\x5c'])) :=
  ⟨tokenize_append_and_take.1 ['a', '\x22', 'b'] [' ', '\x22', 'c'] [.value (.word ['a'])]
      (.value (.unclosed '\x22' ['b'])) (by decide +kernel),
    (tokenize_append_and_take.2 ['a', '\x22', '\x5c', '\x22', '\x22', ' '] [.value (.word ['a'])]
      [.blank [' ']] (.value (.quoted '\x22' ['\x5c', '\x22'])) 2 (by decide +kernel) (by decide)
      (by decide)).2.1⟩

end ShellLine
