import Mathlib.Logic.Basic
import Mathlib.Order.Bounds.Defs
import ShellLine.Lex.Reader

/-!
# Proofs/Lex/Closing — where the reader of a quoted value stops

The opening quote has been read, and the reader looks for the closing one: round by round it looks
at the next character and the one just behind its place, and reads on or stops.  A round knows
nothing of where the search began, so a backslash in front of that place counts like any other.

* `Reader.search?_eq_none_iff` says which places of the text stop a round, and
  `Reader.searches_advance` that the search ends at the first of them.
* `Reader.quoted_of_searches` reads the value, and the place behind it, off the end of the search.

`Reader.quoted_atPlace` puts them together for every place of a text.
-/

namespace ShellLine

/-- Is the character at place `j` of the text a `q` that does not follow a backslash? -/
def IsUnescapedAt (s : List Char) (q : Char) (j : Nat) : Prop :=
  s[j]? = some q ∧ (j = 0 ∨ s[j - 1]? ≠ some '\x5c')

instance (s : List Char) (q : Char) : DecidablePred (IsUnescapedAt s q) :=
  fun _ => inferInstanceAs (Decidable (_ ∧ _))

theorem IsUnescapedAt.lt_length {s : List Char} {q : Char} {j : Nat} (h : IsUnescapedAt s q j) :
    j < s.length :=
  (List.getElem?_eq_some_iff.1 h.1).1

namespace Reader

variable {r r' stop : Reader} {q c : Char} {n : Nat}

/-! ## Where a reader stands -/

theorem peek_eq_getElem? (r : Reader) : r.peek = r.text[r.offset]? := by
  rw [peek, text, offset, start, List.getElem?_append_right (by simp), List.length_reverse,
    Nat.sub_self, List.head?_eq_getElem?]

theorem peekBack_eq_some_iff :
    r.peekBack = some c ↔ r.offset ≠ 0 ∧ r.text[r.offset - 1]? = some c := by
  obtain ⟨_ | ⟨d, behind⟩, ahead, latest⟩ := r
  · simp [peekBack, offset]
  · simp [peekBack, offset, text, start]

theorem offset_next (h : r.ahead ≠ []) : r.next.2.offset = r.offset + 1 :=
  offset_advance 1 r (List.length_pos_iff.2 h)

theorem ahead_next (r : Reader) : r.next.2.ahead = r.ahead.tail := by
  rw [← List.drop_one]
  exact ahead_advance 1 r

theorem advance_succ (n : Nat) (r : Reader) : r.advance (n + 1) = (r.advance n).next.2 := by
  induction n generalizing r with
  | zero => rfl
  | succ n ih => rw [advance, ih, advance]

/-! ## The search for the closing quote -/

/-- One round of the search: read on, unless nothing is left or the next character is a `q` that
does not follow a backslash. -/
def search? (q : Char) (r : Reader) : Option Reader :=
  match r.peek with
  | none => none
  | some c => if c = q ∧ r.peekBack ≠ some '\x5c' then none else some r.next.2

@[simp] theorem search?_nil (q : Char) (behind : List Char) (latest : Option Char) :
    search? q ⟨behind, [], latest⟩ = none := rfl

@[simp] theorem search?_cons (q : Char) (behind : List Char) (c : Char) (ahead : List Char)
    (latest : Option Char) :
    search? q ⟨behind, c :: ahead, latest⟩ =
      if c = q ∧ behind.head? ≠ some '\x5c' then none
      else some ⟨c :: behind, ahead, some c⟩ := rfl

/-- The search reads on for `n` rounds, and then stops at the second reader. -/
inductive Searches (q : Char) : Reader → Nat → Reader → Prop
  | stops {r : Reader} (round : r.search? q = none) : Searches q r 0 r
  | reads {r r' stop : Reader} {n : Nat} (round : r.search? q = some r')
      (rest : Searches q r' n stop) : Searches q r (n + 1) stop

theorem isUnescapedAt_offset_iff :
    IsUnescapedAt r.text q r.offset ↔ r.peek = some q ∧ r.peekBack ≠ some '\x5c' := by
  rw [IsUnescapedAt, peek_eq_getElem?, ne_eq, ne_eq, peekBack_eq_some_iff, not_and_or, not_not]

/-- **One round stops** at the end and in front of an unescaped `q`. -/
theorem search?_eq_none_iff :
    r.search? q = none ↔ r.ahead = [] ∨ IsUnescapedAt r.text q r.offset := by
  rw [isUnescapedAt_offset_iff]
  obtain ⟨behind, _ | ⟨c, ahead⟩, latest⟩ := r
  · simp
  · simp [peek, peekBack]

/-- A round that does not stop reads one character. -/
theorem next_of_search? (h : r.search? q = some r') : r.next.2 = r' := by
  obtain ⟨behind, _ | ⟨c, ahead⟩, latest⟩ := r
  · cases h
  · rw [search?_cons, Option.ite_none_left_eq_some] at h
    exact Option.some.inj h.2

/-- **The search ends at the first place that stops it.** -/
theorem searches_advance (hn : n ≤ r.ahead.length)
    (hpass : ∀ i < n, ¬ IsUnescapedAt r.text q (r.offset + i))
    (hstop : n = r.ahead.length ∨ IsUnescapedAt r.text q (r.offset + n)) :
    Searches q r n (r.advance n) := by
  induction n generalizing r with
  | zero =>
    have hend : r.ahead = [] ∨ IsUnescapedAt r.text q r.offset :=
      hstop.imp_left fun h => List.length_eq_zero_iff.1 h.symm
    exact .stops (search?_eq_none_iff.2 hend)
  | succ n ih =>
    have hne : r.ahead ≠ [] := List.length_pos_iff.1 (by omega)
    have hgoes : r.search? q ≠ none :=
      mt search?_eq_none_iff.1 (not_or.2 ⟨hne, hpass 0 n.succ_pos⟩)
    obtain ⟨r', hround⟩ := Option.ne_none_iff_exists'.1 hgoes
    obtain rfl := next_of_search? hround
    -- the next reader counts the same places of the same text from one further on
    have hplace (i : Nat) : r.next.2.offset + i = r.offset + (i + 1) := by
      rw [offset_next hne]
      omega
    have hlength : r.next.2.ahead.length = r.ahead.length - 1 := by
      rw [ahead_next, List.length_tail]
    refine .reads hround (ih (by omega) ?_ ?_)
    · intro i hi
      rw [text_next, hplace]
      exact hpass (i + 1) (by omega)
    · rw [text_next, hplace, hlength]
      exact hstop.imp_left fun h => by omega

namespace Searches

theorem eq_advance (h : Searches q r n stop) : stop = r.advance n := by
  induction h with
  | stops => rfl
  | reads round rest ih => rw [ih, ← next_of_search? round, advance]

theorem length_ahead (h : Searches q r n stop) : r.ahead.length = n + stop.ahead.length := by
  induction h with
  | stops => exact (Nat.zero_add _).symm
  | @reads r r' stop n round rest ih =>
    have hround : r.search? q ≠ none := by simp [round]
    have hpos : 0 < r.ahead.length :=
      List.length_pos_iff.2 fun h => hround (search?_eq_none_iff.2 (.inl h))
    rw [← next_of_search? round, ahead_next, List.length_tail] at ih
    omega

/-- The text ahead is split where the search stops. -/
theorem splitAtClose_eq (h : Searches q r n stop) :
    splitAtClose q r.behind.head? r.ahead =
      stop.ahead.tail?.map fun rest => (r.ahead.take n, rest) := by
  induction h with
  | @stops r round =>
    obtain ⟨behind, _ | ⟨c, ahead⟩, latest⟩ := r
    · rfl
    · rw [search?_cons, ite_eq_left_iff] at round
      have hclose : c = q ∧ behind.head? ≠ some '\x5c' := not_not.1 fun h => nomatch round h
      rw [splitAtClose, if_pos hclose]
      rfl
  | @reads r r' stop n round rest ih =>
    obtain ⟨behind, _ | ⟨c, ahead⟩, latest⟩ := r
    · cases round
    · rw [search?_cons, Option.ite_none_left_eq_some, Option.some.injEq] at round
      obtain ⟨hopen, rfl⟩ := round
      -- the character that the round has read is the one that stands in front of what is left
      change splitAtClose q (some c) ahead = _ at ih
      rw [splitAtClose, if_neg hopen, ih, Option.map_map]
      rfl

end Searches

/-- **The value is what the search passed over**, closed unless the search came to the end. -/
theorem quoted_of_searches (h : Searches q r n stop) :
    r.quoted q =
      if stop.ahead = [] then (.value (.unclosed q (r.ahead.take n)), stop)
      else (.value (.quoted q (r.ahead.take n)), stop.next.2) := by
  have hlength := h.length_ahead
  rw [quoted, h.splitAtClose_eq, h.eq_advance]
  rw [h.eq_advance] at hlength
  cases hahead : (r.advance n).ahead with
  | nil =>
    obtain rfl : r.ahead.length = n := by simpa [hahead] using hlength
    simp
  | cons d rest =>
    have hn : (r.ahead.take n).length = n := by
      rw [List.length_take]
      omega
    simp [hn, advance_succ]

/-! ## Every place of a text -/

/-- The reader at place `k` of a text; `latest` is what its last move read. -/
def atPlace (s : List Char) (k : Nat) (latest : Option Char) : Reader :=
  ⟨(s.take k).reverse, s.drop k, latest⟩

variable {s : List Char} {j k : Nat} {latest : Option Char}

@[simp] theorem text_atPlace (s : List Char) (k : Nat) (latest : Option Char) :
    (atPlace s k latest).text = s := by
  simp [atPlace, text, start]

theorem offset_atPlace (hk : k ≤ s.length) : (atPlace s k latest).offset = k := by
  rw [offset, atPlace, List.length_reverse, List.length_take_of_le hk]

/-- From place `k` the search ends at the first place that stops it. -/
theorem exists_searches_atPlace (hk : k ≤ j) (hj : j ≤ s.length)
    (hpass : ∀ i, k ≤ i → i < j → ¬ IsUnescapedAt s q i)
    (hstop : j = s.length ∨ IsUnescapedAt s q j) :
    ∃ stop, Searches q (atPlace s k latest) (j - k) stop ∧ stop.offset = j ∧
      stop.ahead = s.drop j := by
  have hoffset : (atPlace s k latest).offset = k := offset_atPlace (Nat.le_trans hk hj)
  have hlength : (atPlace s k latest).ahead.length = s.length - k := List.length_drop
  have hn : j - k ≤ (atPlace s k latest).ahead.length := by omega
  have hplace : k + (j - k) = j := Nat.add_sub_cancel' hk
  refine ⟨_, searches_advance hn ?_ ?_, ?_, ?_⟩
  · intro i hi
    rw [text_atPlace, hoffset]
    exact hpass (k + i) (by omega) (by omega)
  · rw [text_atPlace, hoffset, hlength, hplace]
    exact hstop.imp_left fun h => by omega
  · rw [offset_advance _ _ hn, hoffset, hplace]
  · rw [ahead_advance, atPlace, List.drop_drop, hplace]

theorem text_quoted (q : Char) (r : Reader) : (r.quoted q).2.text = r.text := by
  rw [quoted]
  split
  · exact text_advance _ r
  · exact text_advance _ r

/-- What is read when there is a quote that closes the value. -/
theorem exists_quoted_of_isLeast (h : IsLeast {i | k ≤ i ∧ IsUnescapedAt s q i} j) :
    ∃ stop, Searches q (atPlace s k latest) (j - k) stop ∧ stop.offset = j ∧
      (atPlace s k latest).quoted q = (.value (.quoted q ((s.take j).drop k)), stop.next.2) ∧
      stop.next.2.offset = j + 1 := by
  obtain ⟨⟨hk, hj⟩, hleast⟩ := h
  have hlt := hj.lt_length
  have hpass : ∀ i, k ≤ i → i < j → ¬ IsUnescapedAt s q i :=
    fun i hki hij hi => Nat.not_le_of_lt hij (hleast ⟨hki, hi⟩)
  obtain ⟨stop, hsearch, hoffset, hahead⟩ :=
    exists_searches_atPlace hk (Nat.le_of_lt hlt) hpass (.inr hj)
  have hne : stop.ahead ≠ [] := by
    rw [hahead, ne_eq, List.drop_eq_nil_iff]
    exact Nat.not_le_of_lt hlt
  refine ⟨stop, hsearch, hoffset, ?_, ?_⟩
  · rw [quoted_of_searches hsearch, if_neg hne, atPlace, List.drop_take]
  · rw [offset_next hne, hoffset]

/-- What is read when no quote closes the value. -/
theorem exists_quoted_of_forall_not (hk : k ≤ s.length)
    (h : ∀ i, k ≤ i → ¬ IsUnescapedAt s q i) :
    ∃ stop, Searches q (atPlace s k latest) (s.length - k) stop ∧ stop.offset = s.length ∧
      (atPlace s k latest).quoted q = (.value (.unclosed q (s.drop k)), stop) := by
  obtain ⟨stop, hsearch, hoffset, hahead⟩ :=
    exists_searches_atPlace hk (Nat.le_refl _) (fun i hki _ => h i hki) (.inl rfl)
  refine ⟨stop, hsearch, hoffset, ?_⟩
  rw [List.drop_length] at hahead
  rw [quoted_of_searches hsearch, if_pos hahead, atPlace, ← List.drop_take, List.take_length]

/-- **A quoted value closes at the first quote that follows no backslash.**  Let a reader of a text
look from place `k` for the quote that closes a value.  If `j` is the first place from there on at
which that quote stands, at the start of the text or behind a character that is no backslash, then
the search ends there after `j - k` rounds; the value holds what stands between `k` and `j`, and the
reader goes behind the quote.  If there is no such place, the search ends with the text, and the
value is unclosed and holds all that is left. -/
theorem quoted_atPlace (s : List Char) {k : Nat} (hk : k ≤ s.length) (latest : Option Char)
    (q : Char) :
    let r := atPlace s k latest
    let behind := (r.quoted q).2
    behind.text = s ∧
      (∀ j, IsLeast {i | k ≤ i ∧ IsUnescapedAt s q i} j →
        (r.quoted q).1 = .value (.quoted q ((s.take j).drop k)) ∧ behind.offset = j + 1 ∧
          (s.take behind.offset).drop k = (s.take j).drop k ++ [q] ∧
          ∃ stop, Searches q r (j - k) stop ∧ stop.offset = j ∧ stop.next.2 = behind) ∧
      ((∀ i, k ≤ i → ¬ IsUnescapedAt s q i) →
        (r.quoted q).1 = .value (.unclosed q (s.drop k)) ∧ behind.offset = s.length ∧
          (s.take behind.offset).drop k = s.drop k ∧ Searches q r (s.length - k) behind) := by
  intro r behind
  refine ⟨(text_quoted q r).trans (text_atPlace s k latest), ?_, ?_⟩
  · intro j hj
    obtain ⟨stop, hsearch, hstop, hquoted, hnext⟩ := exists_quoted_of_isLeast hj
    have hbehind : stop.next.2 = behind := (congrArg Prod.snd hquoted).symm
    have hoffset : behind.offset = j + 1 := hbehind ▸ hnext
    have hle : k ≤ (s.take j).length := by
      rw [List.length_take_of_le (Nat.le_of_lt hj.1.2.lt_length)]
      exact hj.1.1
    refine ⟨congrArg Prod.fst hquoted, hoffset, ?_, stop, hsearch, hstop, hbehind⟩
    rw [hoffset, List.take_add_one, hj.1.2.1, Option.toList_some, List.drop_append_of_le_length hle]
  · intro hnone
    obtain ⟨stop, hsearch, hstop, hquoted⟩ := exists_quoted_of_forall_not hk hnone
    obtain rfl : behind = stop := congrArg Prod.snd hquoted
    refine ⟨congrArg Prod.fst hquoted, hstop, ?_, hsearch⟩
    rw [hstop, List.take_length]

/-- The quote behind a backslash is passed over, the one behind a letter closes the value, and
behind that no quote is left. -/
theorem quoted_atPlace_escaped :
    let s := ['\x22', 'a', '\x5c', '\x22', 'b', '\x22', 'c']
    (1 ≤ s.length ∧ IsLeast {i | 1 ≤ i ∧ IsUnescapedAt s '\x22' i} 5 ∧
      ((atPlace s 1 none).quoted '\x22').1 =
        .value (.quoted '\x22' ['a', '\x5c', '\x22', 'b'])) ∧
      (6 ≤ s.length ∧ (∀ i, 6 ≤ i → ¬ IsUnescapedAt s '\x22' i) ∧
        ((atPlace s 6 none).quoted '\x22').1 = .value (.unclosed '\x22' ['c'])) := by
  intro s
  have hleast : IsLeast {i | 1 ≤ i ∧ IsUnescapedAt s '\x22' i} 5 := by
    refine ⟨⟨by decide, by decide⟩, fun i hi => Nat.le_of_not_lt fun hlt => ?_⟩
    have hpass : ∀ i < 5, 1 ≤ i → ¬ IsUnescapedAt s '\x22' i := by decide
    exact hpass i hlt hi.1 hi.2
  have hnone : ∀ i, 6 ≤ i → ¬ IsUnescapedAt s '\x22' i := by
    intro i hle hi
    have hpass : ∀ i < 7, 6 ≤ i → ¬ IsUnescapedAt s '\x22' i := by decide
    exact hpass i hi.lt_length hle hi
  have hfirst : 1 ≤ s.length := by decide
  have hlast : 6 ≤ s.length := by decide
  exact ⟨⟨hfirst, hleast, ((quoted_atPlace s hfirst none '\x22').2.1 5 hleast).1⟩,
    hlast, hnone, ((quoted_atPlace s hlast none '\x22').2.2 hnone).1⟩

/-- A backslash in front of the place where the search begins counts, too. -/
example : (atPlace ['\x5c', '\x22'] 1 none).quoted '\x22' =
    (.value (.unclosed '\x22' ['\x22']), ⟨['\x22', '\x5c'], [], some '\x22'⟩) := by decide

end Reader

end ShellLine
