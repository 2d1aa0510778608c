import ShellLine.Command.Basic
import ShellLine.Proofs.Lex.Tokenize

/-!
# Proofs/Command/SinglePass — reading a command token by token

`Command.parse` reads the assignments off the characters of a line and splits what is left into
tokens.  `Command.ofTokens` takes the tokens of the whole line and goes over them once, from left to
right: an assignment is a word with an equals sign in it, together with the quoted text behind it
when the word ends with that sign.  `parse_eq_ofTokens` says that both give the same command.

The engine is `readFrom_textOf`: on the text of canonical tokens, each item that is read is one or
two whole tokens, so both are at the same token boundary whenever an assignment is accepted.
-/

namespace ShellLine

/-! ## The pass over the tokens -/

/-- The place of the first equals sign behind the first character of a word. -/
def equalsAt? (w : List Char) : Option Nat := (w.tail.findIdx? fun c => c == '=').map (· + 1)

/-- What a pass over tokens finds: the assignments, how many tokens there are up to the end of the
last of them, and the unclosed quote that ended the pass. -/
structure TokenPass where
  assignments : List Assignment
  taken : Nat
  error? : Option UnclosedQuote

namespace TokenPass

/-- Put an assignment in front. -/
def cons (a : Assignment) (p : TokenPass) : TokenPass :=
  { p with assignments := a :: p.assignments }

/-- Go over tokens of which `n` are behind; `taken` of these end with the last assignment. -/
def run (n taken : Nat) : List Token → TokenPass
  | .blank _ :: ts => run (n + 1) taken ts
  | .value (.word w) :: ts =>
    match equalsAt? w with
    | none => ⟨[], taken, none⟩
    | some i =>
      if w.drop (i + 1) = [] then
        match ts with
        | .value (.quoted q content) :: ts =>
          (run (n + 2) (n + 2) ts).cons ⟨w.take i, .quoted q content⟩
        | .value (.unclosed q content) :: _ => ⟨[], taken, some ⟨.assignment, q, content⟩⟩
        | _ => ⟨[], taken, none⟩
      else (run (n + 1) (n + 1) ts).cons ⟨w.take i, .word (w.drop (i + 1))⟩
  | _ => ⟨[], taken, none⟩

/-- What the pass has found, as what the front of the line holds. -/
def toLeading (all : List Token) (p : TokenPass) : Leading :=
  ⟨p.assignments, textOf (all.drop p.taken), p.error?⟩

theorem toLeading_cons (all : List Token) (a : Assignment) (p : TokenPass) :
    (p.cons a).toLeading all = (p.toLeading all).cons a := rfl

end TokenPass

/-- The command that some tokens make. -/
def Command.ofTokens (ts : List Token) : Command :=
  let p := TokenPass.run 0 0 ts
  let vs := (ts.drop p.taken).filterMap Token.value?
  { assignments := p.assignments
    program := vs.headD (.word [])
    arguments := vs.tail
    offset := (textOf (ts.take p.taken)).length
    errors := p.error?.toList ++ vs.filterMap (Value.unclosedAt? .argument) }

theorem drop_succ_of_drop_eq_cons {α : Type} {l us : List α} {t : α} {n : Nat}
    (h : l.drop n = t :: us) : l.drop (n + 1) = us := by
  rw [← List.tail_drop, h, List.tail_cons]

theorem not_mem_of_equalsAt?_eq_none {c : Char} {w : List Char} (h : equalsAt? (c :: w) = none) :
    '=' ∉ w := by
  intro hmem
  rw [equalsAt?, List.tail_cons, Option.map_eq_none_iff] at h
  simpa using List.findIdx?_eq_none_iff.1 h _ hmem

/-- The equals sign parts a word into the key, the sign and the rest. -/
theorem exists_of_equalsAt?_eq_some {w : List Char} {i : Nat} (h : equalsAt? w = some i) :
    ∃ c k, '=' ∉ k ∧ w.take i = c :: k ∧ w = c :: (k ++ '=' :: w.drop (i + 1)) := by
  cases w with
  | nil => simp [equalsAt?] at h
  | cons c w =>
    simp only [equalsAt?, List.tail_cons, Option.map_eq_some_iff] at h
    obtain ⟨i, hfind, rfl⟩ := h
    obtain ⟨hi, heq, hlt⟩ := List.findIdx?_eq_some_iff_getElem.1 hfind
    refine ⟨c, w.take i, fun hmem => ?_, rfl, ?_⟩
    · obtain ⟨j, hj, hget⟩ := List.getElem_of_mem hmem
      have hji : j < i := by
        rw [List.length_take] at hj
        omega
      rw [List.getElem_take] at hget
      simpa [hget] using hlt j hji
    · have hsign : w[i] = '=' := by simpa using heq
      rw [← hsign, List.drop_succ_cons, List.getElem_cons_drop, List.take_append_drop]

/-! ## What the item in front of some tokens is -/

namespace Item

theorem read_blank {c : Char} {r rest : List Char} (hr : (Token.blank (c :: r)).IsCanonical)
    (hend : (Token.blank (c :: r)).EndsBefore rest) :
    read c (r ++ rest) = (some (blank (c :: r)), rest) := by
  have hb : isBlank c = true := hr.2 c (by simp)
  have hq : isQuote c = false := isQuote_eq_false_of_isBlank hb
  obtain ⟨h1, h2⟩ := span_append (fun d (hd : d ∈ r) => hr.2 d (by simp [hd])) hend
  simp [read, hq, hb, h1, h2]

/-- Characters of a word that are no equals sign belong to the key. -/
theorem read_key {c : Char} {k rest : List Char} (hc : isQuote c = false ∧ isBlank c = false)
    (hk : ∀ d ∈ k, isQuote d = false ∧ isBlank d = false) (heq : '=' ∉ k)
    (hrest : ∀ d ∈ rest.head?, endsKey d = true) :
    read c (k ++ rest) = readAfterKey (c :: k) rest := by
  have hk' : ∀ d ∈ k, (!endsKey d) = true := fun d hd => by
    have hne : d ≠ '=' := fun h => heq (h ▸ hd)
    simp [endsKey, hk d hd, hne]
  have hrest' : ∀ d ∈ rest.head?, (!endsKey d) = false := fun d hd => by simp [hrest d hd]
  obtain ⟨h1, h2⟩ := span_append hk' hrest'
  simp [read, hc.1, hc.2, h1, h2]

theorem readAfterKey_equals_cons (key : List Char) (d : Char) (s : List Char) :
    readAfterKey key ('=' :: d :: s) =
      if isBlank d then (some (dangling key (key ++ ['=', d])), s)
      else (some (assignment ⟨key, (Value.read d s).1⟩), (Value.read d s).2) := rfl

/-- A key without an equals sign behind it makes no assignment. -/
theorem isError_readAfterKey {key rest : List Char} (h : ∀ d ∈ rest.head?, endsWord d = true) :
    ∀ i ∈ (readAfterKey key rest).1, i.isError = true := by
  intro i hi
  unfold readAfterKey at hi
  split at hi
  · simp at hi
  · exact absurd (h '=' rfl) (by decide)
  · exact absurd (h '=' rfl) (by decide)
  · split at hi <;> simp only [Option.mem_some] at hi <;> rw [← hi, isError]

/-- Behind an equals sign stands the value. -/
theorem readAfterKey_value {key rest : List Char} {v : Value} (hv : v.IsCanonical)
    (hend : v.EndsBefore rest) :
    readAfterKey key ('=' :: (v.text ++ rest)) = (some (assignment ⟨key, v⟩), rest) := by
  have hne : v.text ≠ [] := Token.IsCanonical.text_ne_nil (t := .value v) hv
  obtain ⟨d, s, hs⟩ := List.exists_cons_of_ne_nil hne
  obtain ⟨hb, hread⟩ := valueRead_of_text hv hend (by rw [hs, List.cons_append])
  rw [hs, List.cons_append, readAfterKey_equals_cons, hb, hread]
  rfl

/-- An equals sign in front of the end or of a blank leaves the key dangling. -/
theorem isError_readAfterKey_equals {key rest : List Char}
    (h : ∀ d ∈ rest.head?, isBlank d = true) :
    ∀ i ∈ (readAfterKey key ('=' :: rest)).1, i.isError = true := by
  cases rest with
  | nil => simp [show readAfterKey key ['='] = (some (dangling key (key ++ ['='])), []) from rfl,
      isError]
  | cons d rest => simp [readAfterKey_equals_cons, h d rfl, isError]

end Item

namespace Leading

variable {c : Char} {kept s rest : List Char}

theorem readFrom_of_blank {run : List Char} (h : Item.read c s = (some (.blank run), rest)) :
    readFrom kept (c :: s) = readFrom kept rest := by
  rw [readFrom]
  split <;> simp_all

/-- An assignment is kept and reading goes on, unless its quote is unclosed. -/
theorem readFrom_of_assignment {a : Assignment}
    (h : Item.read c s = (some (.assignment a), rest)) :
    readFrom kept (c :: s) =
      (a.value.unclosedAt? .assignment).elim ((readFrom rest rest).cons a)
        fun e => ⟨[], kept, some e⟩ := by
  rw [readFrom]
  split
  · simp_all
  · rename_i h'
    rw [h] at h'
    simp only [Prod.mk.injEq, Option.some.injEq, Item.assignment.injEq] at h'
    obtain ⟨rfl, rfl⟩ := h'
    cases a.value.unclosedAt? .assignment <;> simp
  · simp_all

/-- What is no blank and no assignment ends the reading. -/
theorem readFrom_of_isError (h : ∀ i ∈ (Item.read c s).1, i.isError = true) :
    readFrom kept (c :: s) = ⟨[], kept, none⟩ := by
  rw [readFrom]
  split
  · rename_i h'
    simp [h', Item.isError] at h
  · rename_i h'
    simp [h', Item.isError] at h
  · rfl

/-! ## Both readings at the same token boundary -/

/-- A word without an equals sign ends the assignments. -/
theorem readFrom_bare {w : List Char} (hw : (Value.word (c :: w)).IsCanonical)
    (heq : '=' ∉ w) (hend : (Value.word (c :: w)).EndsBefore rest) :
    readFrom kept (c :: (w ++ rest)) = ⟨[], kept, none⟩ := by
  refine readFrom_of_isError ?_
  rw [Item.read_key (hw.2 c (by simp)) (fun d hd => hw.2 d (by simp [hd])) heq fun d hd => by
    simpa [endsKey, endsWord, or_right_comm] using Or.inl (hend d hd)]
  exact Item.isError_readAfterKey hend

/-- In a word with an equals sign the key is what stands in front of the sign. -/
theorem itemRead_keyed {w : List Char} {i : Nat} (hw : (Value.word w).IsCanonical)
    (hi : equalsAt? w = some i) (rest : List Char) :
    ∃ c s, w ++ rest = c :: s ∧
      Item.read c s = Item.readAfterKey (w.take i) ('=' :: (w.drop (i + 1) ++ rest)) := by
  obtain ⟨c, k, hk, htake, hsplit⟩ := exists_of_equalsAt?_eq_some hi
  have hmem : ∀ d ∈ c :: k, isQuote d = false ∧ isBlank d = false := fun d hd =>
    hw.2 d (List.mem_of_mem_take (htake ▸ hd))
  refine ⟨c, k ++ '=' :: (w.drop (i + 1) ++ rest), ?_, ?_⟩
  · conv_lhs => rw [hsplit]
    simp
  · rw [htake]
    exact Item.read_key (hmem c (by simp)) (fun d hd => hmem d (by simp [hd])) hk
      fun d hd => by simp [← Option.mem_some.1 hd, endsKey]

/-- …and the value is what stands behind the sign, in the word or in front of what follows it. -/
theorem itemRead_assignment {w rest : List Char} {i : Nat} {v : Value}
    (hw : (Value.word w).IsCanonical) (hi : equalsAt? w = some i) (hv : v.IsCanonical)
    (hend : v.EndsBefore rest) {after : List Char}
    (htext : w.drop (i + 1) ++ after = v.text ++ rest) :
    ∃ c s, w ++ after = c :: s ∧ Item.read c s = (some (.assignment ⟨w.take i, v⟩), rest) := by
  obtain ⟨c, s, hs, hread⟩ := itemRead_keyed hw hi after
  exact ⟨c, s, hs, by rw [hread, htext, Item.readAfterKey_value hv hend]⟩

/-- Where no quoted text follows a word, a blank does or nothing. -/
theorem isBlank_head_textOf {w : List Char} {ts : List Token}
    (h : IsCanonical (.value (.word w) :: ts))
    (hquoted : ∀ q content us, ts ≠ .value (.quoted q content) :: us)
    (hunclosed : ∀ q content us, ts ≠ .value (.unclosed q content) :: us) :
    ∀ d ∈ (textOf ts).head?, isBlank d = true := by
  rcases ts with _ | ⟨(w' | ⟨q, content⟩ | ⟨q, content⟩) | run, us⟩
  · simp
  · exact absurd (List.isChain_cons_cons.1 h.chain).1 id
  · exact absurd rfl (hquoted q content us)
  · exact absurd rfl (hunclosed q content us)
  · obtain ⟨hne, hall⟩ := h.tail.each _ (List.mem_cons_self ..)
    obtain ⟨d, run, rfl⟩ := List.exists_cons_of_ne_nil hne
    simpa [Token.text] using hall d (by simp)

open TokenPass in
/-- **On the text of canonical tokens the assignments are those of the pass.**  The induction is
over the pass; both readings are behind the same token whenever one of them goes on. -/
theorem readFrom_textOf (all : List Token) {ts : List Token} {n taken : Nat} (h : IsCanonical ts)
    (hn : all.drop n = ts) :
    readFrom (textOf (all.drop taken)) (textOf ts) = (run n taken ts).toLeading all := by
  fun_induction run n taken ts with
  | case1 n taken r ts ih =>
    have hr := h.each _ (List.mem_cons_self ..)
    obtain ⟨c, r, rfl⟩ := List.exists_cons_of_ne_nil hr.1
    rw [← ih h.tail (drop_succ_of_drop_eq_cons hn)]
    exact readFrom_of_blank (Item.read_blank hr h.endsBefore)
  | case2 n taken w ts hi =>
    have hw : (Value.word w).IsCanonical := h.each _ (List.mem_cons_self ..)
    obtain ⟨c, w, rfl⟩ := List.exists_cons_of_ne_nil hw.1
    exact readFrom_bare hw (not_mem_of_equalsAt?_eq_none hi) h.endsBefore
  | case3 n taken w i hi hnil q content ts ih =>
    have hn' := drop_succ_of_drop_eq_cons (drop_succ_of_drop_eq_cons hn)
    have hv : (Value.quoted q content).IsCanonical := h.tail.each _ (List.mem_cons_self ..)
    obtain ⟨c, s, hs, hread⟩ := itemRead_assignment (h.each _ (List.mem_cons_self ..)) hi hv
      h.tail.endsBefore (by rw [hnil]; rfl)
    rw [toLeading_cons, ← ih h.tail.tail hn', hn']
    exact (congrArg _ hs).trans (readFrom_of_assignment hread)
  | case4 n taken w i hi hnil q content ts =>
    have hv : (Value.unclosed q content).IsCanonical := h.tail.each _ (List.mem_cons_self ..)
    obtain ⟨c, s, hs, hread⟩ := itemRead_assignment (h.each _ (List.mem_cons_self ..)) hi hv
      h.tail.endsBefore (by rw [hnil]; rfl)
    exact (congrArg _ hs).trans (readFrom_of_assignment hread)
  | case5 n taken w ts i hi hnil hquoted hunclosed =>
    obtain ⟨c, s, hs, hread⟩ := itemRead_keyed (h.each _ (List.mem_cons_self ..)) hi (textOf ts)
    refine (congrArg _ hs).trans (readFrom_of_isError ?_)
    rw [hread, hnil]
    exact Item.isError_readAfterKey_equals (isBlank_head_textOf h hquoted hunclosed)
  | case6 n taken w ts i hi hne ih =>
    have hn' := drop_succ_of_drop_eq_cons hn
    have hw : (Value.word w).IsCanonical := h.each _ (List.mem_cons_self ..)
    have hv : (Value.word (w.drop (i + 1))).IsCanonical :=
      ⟨hne, fun d hd => hw.2 d (List.mem_of_mem_drop hd)⟩
    have hend : (Value.word w).EndsBefore (textOf ts) := h.endsBefore
    obtain ⟨c, s, hs, hread⟩ := itemRead_assignment hw hi hv hend rfl
    rw [toLeading_cons, ← ih h.tail hn', hn']
    exact (congrArg _ hs).trans (readFrom_of_assignment hread)
  | case7 ts n taken hblank hword =>
    rcases ts with _ | ⟨(w | ⟨q, content⟩ | ⟨q, content⟩) | run, ts⟩
    · simp [readFrom, toLeading]
    · exact absurd rfl (hword w ts)
    · have hq := (h.each _ (List.mem_cons_self ..)).1
      exact readFrom_of_isError (by simp [Item.read, hq, Item.isError])
    · have hq := (h.each _ (List.mem_cons_self ..)).1
      exact readFrom_of_isError (by simp [Item.read, hq, Item.isError])
    · exact absurd rfl (hblank run ts)

/-- The front of a line is what the pass over its tokens finds. -/
theorem read_eq_toLeading (s : List Char) :
    Leading.read s = (TokenPass.run 0 0 (tokenize s)).toLeading (tokenize s) := by
  have h := @readFrom_textOf (tokenize s) _ 0 0 (isCanonical_tokenize s) rfl
  rwa [List.drop_zero, textOf_tokenize] at h

end Leading

/-- The values behind some tokens of a line are among the others. -/
theorem Command.values_textOf_drop (s : List Char) (n : Nat) :
    values (textOf ((tokenize s).drop n)) = ((tokenize s).drop n).filterMap Token.value? := by
  rw [values, tokenize_textOf ((isCanonical_tokenize s).drop n)]

/-- **Reading the characters of a line and going over its tokens once give the same command.** -/
theorem parse_eq_ofTokens (s : List Char) : Command.parse s = Command.ofTokens (tokenize s) := by
  set p := TokenPass.run 0 0 (tokenize s) with hp
  have hfront : Leading.read s = p.toLeading (tokenize s) := Leading.read_eq_toLeading s
  have hvalues := Command.values_textOf_drop s p.taken
  have hoffset : s.length - (textOf ((tokenize s).drop p.taken)).length =
      (textOf ((tokenize s).take p.taken)).length := by
    have hs : textOf ((tokenize s).take p.taken) ++ textOf ((tokenize s).drop p.taken) = s := by
      rw [← textOf_append, List.take_append_drop, textOf_tokenize]
    have := congrArg List.length hs
    rw [List.length_append] at this
    omega
  simp only [Command.parse, Command.ofTokens, hfront, TokenPass.toLeading, hvalues, hoffset, ← hp]

end ShellLine
