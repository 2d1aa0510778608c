import Mathlib.Data.List.Basic
import Mathlib.Data.List.Chain
import Mathlib.Data.List.TakeWhile
import ShellLine.Lex.Token

/-!
# Proofs/Lex/Canonical — the one way a line splits into tokens

A token of a line is no text by accident: a word holds no quote and no blank, a quoted text holds
its quote behind backslashes only, and each token ends where it could not go on.

* `splitAtClose_eq_some_iff` and `splitAtClose_eq_none_iff` say where a quoted text closes.
* `Token.read_eq_iff` pins reading one token: it gives the only canonical token that stands at the
  front of the text and ends in front of what is left.
* `IsCanonical` is the shape of the token lists of lines: canonical tokens, each of which may stand
  in front of the next.
-/

namespace ShellLine

/-! ## Where a quoted text closes -/

/-- Every `q` of the text follows a backslash; `before` is the character in front of the text. -/
def EscapedAfter (q : Char) (before : Option Char) (s : List Char) : Prop :=
  ∀ left right, s = left ++ q :: right → left.getLast?.or before = some '\x5c'

/-- Every `q` of the text follows a backslash of the text. -/
abbrev Escaped (q : Char) (s : List Char) : Prop := EscapedAfter q none s

variable {q c : Char} {before : Option Char} {s : List Char}

theorem getLast?_cons_or (c : Char) (before : Option Char) (s : List Char) :
    (c :: s).getLast?.or before = s.getLast?.or (some c) := by
  rw [List.getLast?_cons]
  cases s.getLast? <;> rfl

@[simp] theorem escapedAfter_nil : EscapedAfter q before [] := by
  intro left right h
  simp at h

@[simp] theorem escapedAfter_cons :
    EscapedAfter q before (c :: s) ↔
      (c = q → before = some '\x5c') ∧ EscapedAfter q (some c) s := by
  constructor
  · intro h
    refine ⟨fun hc => by simpa using h [] s (by simp [hc]), fun left right hs => ?_⟩
    rw [← getLast?_cons_or c before]
    exact h (c :: left) right (by simp [hs])
  · rintro ⟨hc, hs⟩ left right h
    cases left with
    | nil => exact hc (List.cons.inj h).1
    | cons d left =>
      obtain ⟨rfl, h'⟩ := List.cons.inj h
      rw [getLast?_cons_or]
      exact hs left right h'

instance decidableEscapedAfter (q : Char) :
    ∀ (before : Option Char) (s : List Char), Decidable (EscapedAfter q before s)
  | _, [] => isTrue escapedAfter_nil
  | _, c :: s =>
    have := decidableEscapedAfter q (some c) s
    decidable_of_iff' _ escapedAfter_cons

/-- Only a backslash in front of a text tells it from a text with nothing in front. -/
theorem escapedAfter_some_iff (hc : c ≠ '\x5c') : EscapedAfter q (some c) s ↔ Escaped q s := by
  cases s <;> simp [hc]

theorem splitAtClose_eq_none_iff :
    ∀ {before : Option Char} {s : List Char},
      splitAtClose q before s = none ↔ EscapedAfter q before s
  | _, [] => by simp [splitAtClose]
  | before, c :: s => by
      rw [escapedAfter_cons, ← splitAtClose_eq_none_iff, splitAtClose]
      split
      · rename_i h
        simp [h.1, h.2]
      · rename_i h
        simp only [not_and, not_not] at h
        simp only [Option.map_eq_none_iff, iff_and_self]
        exact fun _ => h

/-- **A quoted text closes at its first quote that does not follow a backslash.** -/
theorem splitAtClose_eq_some_iff :
    ∀ {before : Option Char} {s content rest : List Char},
      splitAtClose q before s = some (content, rest) ↔
        s = content ++ q :: rest ∧ EscapedAfter q before content ∧
          content.getLast?.or before ≠ some '\x5c'
  | _, [], content, rest => by simp [splitAtClose]
  | before, c :: s, [], rest => by
      rw [splitAtClose]
      split
      · rename_i h
        simp [h.1, h.2]
      · rename_i h
        simp only [not_and, not_not] at h
        simpa using fun hc _ => h hc
  | before, c :: s, d :: content, rest => by
      have ih := @splitAtClose_eq_some_iff (some c) s content rest
      rw [splitAtClose, getLast?_cons_or, List.cons_append, List.cons.injEq, escapedAfter_cons]
      split
      · rename_i h
        simp only [Option.some.injEq, Prod.mk.injEq, List.nil_eq, reduceCtorEq, false_and,
          false_iff, not_and]
        rintro ⟨rfl, -⟩ ⟨hd, -⟩
        exact absurd (hd h.1) h.2
      · rename_i h
        simp only [not_and, not_not] at h
        simp only [Option.map_eq_some_iff, Prod.mk.injEq, List.cons.injEq, Prod.exists]
        constructor
        · rintro ⟨content', rest', hs, ⟨rfl, rfl⟩, rfl⟩
          obtain ⟨h1, h2, h3⟩ := ih.1 hs
          exact ⟨⟨rfl, h1⟩, ⟨h, h2⟩, h3⟩
        · rintro ⟨⟨rfl, hs⟩, ⟨-, h2⟩, h3⟩
          exact ⟨content, rest, ih.2 ⟨hs, h2, h3⟩, ⟨rfl, rfl⟩, rfl⟩

/-! ## One token

Three things pin the token at the front of a text: it is canonical, it stands there, and what is
left cannot belong to it. -/

/-- Can the value stand in a line?  A word is not empty and holds no quote and no blank.  A quoted
text holds its quote behind backslashes only; one that closes does not end with a backslash. -/
def Value.IsCanonical : Value → Prop
  | .word s => s ≠ [] ∧ ∀ c ∈ s, isQuote c = false ∧ isBlank c = false
  | .quoted q s => isQuote q = true ∧ Escaped q s ∧ s.getLast? ≠ some '\x5c'
  | .unclosed q s => isQuote q = true ∧ Escaped q s

/-- Can the token stand in a line?  A run of blanks is one of blanks only and not empty. -/
def Token.IsCanonical : Token → Prop
  | .value v => v.IsCanonical
  | .blank run => run ≠ [] ∧ ∀ c ∈ run, isBlank c = true

instance : DecidablePred Value.IsCanonical
  | .word _ => @instDecidableAnd _ _ _ (List.decidableBAll _ _)
  | .quoted _ _ => inferInstanceAs (Decidable (_ ∧ _ ∧ _))
  | .unclosed _ _ => inferInstanceAs (Decidable (_ ∧ _))

instance : DecidablePred Token.IsCanonical
  | .value v => inferInstanceAs (Decidable v.IsCanonical)
  | .blank _ => @instDecidableAnd _ _ _ (List.decidableBAll _ _)

/-- Does the value end in front of `rest`? -/
def Value.EndsBefore : Value → List Char → Prop
  | .word _, rest => ∀ d ∈ rest.head?, endsWord d = true
  | .quoted _ _, _ => True
  | .unclosed _ _, rest => rest = []

@[simp] theorem Value.endsBefore_nil (v : Value) : v.EndsBefore [] := by
  cases v <;> simp [EndsBefore]

theorem Value.EndsBefore.eq_nil {v : Value} {rest : List Char} (h : v.EndsBefore rest)
    (hv : v.isUnclosed = true) : rest = [] := by
  rcases v with w | ⟨q, content⟩ | ⟨q, content⟩
  · cases hv
  · cases hv
  · exact h

/-- A value that ends in front of a text ends in front of its beginning. -/
theorem Value.EndsBefore.of_append {v : Value} {s t : List Char} (h : v.EndsBefore (s ++ t)) :
    v.EndsBefore s := by
  cases s with
  | nil => exact v.endsBefore_nil
  | cons c s =>
    rcases v with w | ⟨q, content⟩ | ⟨q, content⟩
    · exact h
    · trivial
    · exact absurd h (List.cons_ne_nil _ _)

/-- Does the token end in front of `rest`? -/
def Token.EndsBefore : Token → List Char → Prop
  | .value v, rest => v.EndsBefore rest
  | .blank _, rest => ∀ d ∈ rest.head?, isBlank d = false

theorem ne_backslash_of_isQuote (h : isQuote c = true) : c ≠ '\x5c' := by
  rintro rfl
  simp [isQuote] at h

theorem isCanonical_valueRead (hb : isBlank c = false) (s : List Char) :
    (Value.read c s).1.IsCanonical := by
  unfold Value.read
  split
  · rename_i hq
    have hc := ne_backslash_of_isQuote hq
    split
    · rename_i h
      obtain ⟨-, h2, h3⟩ := splitAtClose_eq_some_iff.1 h
      refine ⟨hq, (escapedAfter_some_iff hc).1 h2, fun hlast => h3 ?_⟩
      rw [hlast]
      rfl
    · rename_i h
      exact ⟨hq, (escapedAfter_some_iff hc).1 (splitAtClose_eq_none_iff.1 h)⟩
  · rename_i hq
    refine ⟨by simp, fun d hd => ?_⟩
    rcases List.mem_cons.1 hd with rfl | hd
    · exact ⟨by simpa using hq, hb⟩
    · simpa [endsWord] using List.mem_takeWhile_imp hd

theorem endsBefore_valueRead (c : Char) (s : List Char) :
    (Value.read c s).1.EndsBefore (Value.read c s).2 := by
  unfold Value.read
  split
  · split <;> simp [Value.EndsBefore]
  · intro d hd
    have := List.head?_dropWhile_not (fun c => !endsWord c) s
    rw [show (s.dropWhile fun c => !endsWord c).head? = some d from hd] at this
    simpa using this

/-- What is read off the front of a text is canonical. -/
theorem isCanonical_read (c : Char) (s : List Char) : (Token.read c s).1.IsCanonical := by
  unfold Token.read
  split
  · rename_i hb
    refine ⟨by simp, fun d hd => ?_⟩
    rcases List.mem_cons.1 hd with rfl | hd
    · exact hb
    · exact List.mem_takeWhile_imp hd
  · rename_i hb
    exact isCanonical_valueRead (by simpa using hb) s

theorem endsBefore_read (c : Char) (s : List Char) :
    (Token.read c s).1.EndsBefore (Token.read c s).2 := by
  unfold Token.read
  split
  · intro d hd
    have := List.head?_dropWhile_not isBlank s
    rw [show (s.dropWhile isBlank).head? = some d from hd] at this
    simpa using this
  · exact endsBefore_valueRead c s

/-- A text in which `p` holds is the longest such text in front of a rest that `p` keeps out. -/
theorem span_append {p : Char → Bool} {s rest : List Char} (hs : ∀ c ∈ s, p c = true)
    (hrest : ∀ d ∈ rest.head?, p d = false) :
    (s ++ rest).takeWhile p = s ∧ (s ++ rest).dropWhile p = rest := by
  rw [List.takeWhile_append_of_pos hs, List.dropWhile_append_of_pos hs]
  cases rest with
  | nil => simp
  | cons d rest => simp [hrest d rfl]

theorem valueRead_of_text {v : Value} {rest : List Char} (hv : v.IsCanonical)
    (hend : v.EndsBefore rest) (htext : v.text ++ rest = c :: s) :
    isBlank c = false ∧ Value.read c s = (v, rest) := by
  cases v with
  | word w =>
    obtain ⟨hne, hall⟩ := hv
    obtain ⟨d, w, rfl⟩ := List.exists_cons_of_ne_nil hne
    obtain ⟨rfl, rfl⟩ := List.cons.inj htext
    obtain ⟨hq, hb⟩ := hall d (by simp)
    have hw : ∀ e ∈ w, (!endsWord e) = true := fun e he => by
      simp [endsWord, hall e (by simp [he])]
    have hrest : ∀ e ∈ rest.head?, (!endsWord e) = false := fun e he => by simp [hend e he]
    obtain ⟨h1, h2⟩ := span_append hw hrest
    refine ⟨hb, ?_⟩
    simp [Value.read, splitWord, hq, h1, h2]
  | quoted q content =>
    obtain ⟨hq, hesc, hlast⟩ := hv
    obtain ⟨rfl, rfl⟩ : q = c ∧ content ++ q :: rest = s := by simpa [Value.text] using htext
    have hc := ne_backslash_of_isQuote hq
    have hsplit : splitAtClose q (some q) (content ++ q :: rest) = some (content, rest) := by
      refine splitAtClose_eq_some_iff.2 ⟨rfl, (escapedAfter_some_iff hc).2 hesc, ?_⟩
      cases h : content.getLast? with
      | none => simpa using hc
      | some d => simpa [h] using hlast
    refine ⟨isBlank_eq_false_of_isQuote hq, ?_⟩
    simp [Value.read, hq, hsplit]
  | unclosed q content =>
    obtain ⟨hq, hesc⟩ := hv
    obtain rfl : rest = [] := hend
    obtain ⟨rfl, rfl⟩ : q = c ∧ content = s := by simpa [Value.text] using htext
    have hsplit : splitAtClose q (some q) content = none :=
      splitAtClose_eq_none_iff.2 ((escapedAfter_some_iff (ne_backslash_of_isQuote hq)).2 hesc)
    refine ⟨isBlank_eq_false_of_isQuote hq, ?_⟩
    simp [Value.read, hq, hsplit]

/-- **One token, pinned**: reading gives the canonical token that stands in front and cannot go
on. -/
theorem Token.read_eq_iff {t : Token} {rest : List Char} :
    Token.read c s = (t, rest) ↔ t.IsCanonical ∧ t.EndsBefore rest ∧ t.text ++ rest = c :: s := by
  constructor
  · intro h
    have h1 := isCanonical_read c s
    have h2 := endsBefore_read c s
    have h3 := Token.text_read c s
    rw [h] at h1 h2 h3
    exact ⟨h1, h2, h3⟩
  · rintro ⟨ht, hend, htext⟩
    cases t with
    | value v =>
      obtain ⟨hb, hread⟩ := valueRead_of_text ht hend htext
      simp [Token.read, hb, hread]
    | blank run =>
      obtain ⟨hne, hall⟩ := ht
      obtain ⟨d, run, rfl⟩ := List.exists_cons_of_ne_nil hne
      obtain ⟨rfl, rfl⟩ := List.cons.inj htext
      obtain ⟨h1, h2⟩ := span_append (fun c (hc : c ∈ run) => hall c (by simp [hc])) hend
      simp [Token.read, hall d (by simp), h1, h2]

/-! ## Token lists -/

/-- May the second token stand behind the first?  Nothing stands behind an unclosed quote, no word
behind a word and no run of blanks behind a run of blanks. -/
def Token.MayPrecede : Token → Token → Prop
  | .value (.unclosed _ _), _ => False
  | .value (.word _), .value (.word _) => False
  | .blank _, .blank _ => False
  | _, _ => True

instance : DecidableRel Token.MayPrecede
  | .value (.unclosed _ _), _ => isFalse id
  | .value (.word _), .value (.word _) => isFalse id
  | .value (.word _), .value (.quoted _ _) => isTrue trivial
  | .value (.word _), .value (.unclosed _ _) => isTrue trivial
  | .value (.word _), .blank _ => isTrue trivial
  | .value (.quoted _ _), _ => isTrue (by simp [Token.MayPrecede])
  | .blank _, .value _ => isTrue trivial
  | .blank _, .blank _ => isFalse id

/-- The token lists of lines: each token is canonical and may stand in front of the next. -/
structure IsCanonical (ts : List Token) : Prop where
  each : ∀ t ∈ ts, t.IsCanonical
  chain : ts.IsChain Token.MayPrecede

instance (ts : List Token) : Decidable (IsCanonical ts) :=
  decidable_of_iff ((∀ t ∈ ts, t.IsCanonical) ∧ ts.IsChain Token.MayPrecede)
    ⟨fun h => ⟨h.1, h.2⟩, fun h => ⟨h.1, h.2⟩⟩

/-- The text of some tokens, one after the other. -/
def textOf (ts : List Token) : List Char := (ts.map Token.text).flatten

@[simp] theorem textOf_nil : textOf [] = [] := rfl

@[simp] theorem textOf_cons (t : Token) (ts : List Token) :
    textOf (t :: ts) = t.text ++ textOf ts := by simp [textOf]

@[simp] theorem textOf_append (ts us : List Token) :
    textOf (ts ++ us) = textOf ts ++ textOf us := by simp [textOf]

@[simp] theorem textOf_tokenize (s : List Char) : textOf (tokenize s) = s := flatten_tokenize s

end ShellLine
