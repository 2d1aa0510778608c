import ShellLine.Proofs.Command.Front

/-!
# Proofs/Command/Errors — the errors of a line are its unclosed quote

A line has at most one unclosed quote, that of its last token.  Reading a command goes over the line
twice, once for its assignments and once for the values behind them, and both readings may meet it.

* `filterMap_unclosedAt?_values`: the values behind the assignments always have it.
* `Leading.exists_rest_of_unclosed`: if the value of the last item has it, that assignment is not
  kept, and is all there is left of the line.

`Command.errors_cases` puts this together: the errors of a line are this quote, once or twice.
-/

namespace ShellLine

/-! ## The last token -/

/-- The error of a token at a place, if its quote is unclosed. -/
def Token.unclosedAt? (place : QuotePlace) (t : Token) : Option UnclosedQuote :=
  t.value?.bind (Value.unclosedAt? place)

theorem Token.isSome_unclosedAt? (place : QuotePlace) (t : Token) :
    (t.unclosedAt? place).isSome = t.isUnclosed := by
  cases t with
  | value v => exact v.isSome_unclosedAt? place
  | blank run => rfl

theorem Token.exists_of_unclosedAt? {place : QuotePlace} {t : Token} {e : UnclosedQuote}
    (h : t.unclosedAt? place = some e) :
    ∃ q content, t = .value (.unclosed q content) ∧ e = ⟨place, q, content⟩ := by
  rcases t with (w | ⟨q, content⟩ | ⟨q, content⟩) | run
  · cases h
  · cases h
  · exact ⟨q, content, rfl, (Option.some.inj h).symm⟩
  · cases h

/-- Only the last of canonical tokens can have an unclosed quote. -/
theorem filterMap_unclosedAt? {ts : List Token} (h : IsCanonical ts) (place : QuotePlace) :
    ts.filterMap (Token.unclosedAt? place) =
      (ts.getLast?.bind (Token.unclosedAt? place)).toList := by
  induction ts with
  | nil => rfl
  | cons t ts ih =>
    cases ts with
    | nil => cases h : t.unclosedAt? place <;> simp [h]
    | cons u ts =>
      have htu : t.MayPrecede u := (List.isChain_cons_cons.1 h.chain).1
      have hnone : t.unclosedAt? place = none := by
        rcases t with (w | ⟨q, content⟩ | ⟨q, content⟩) | run
        · rfl
        · rfl
        · cases htu
        · rfl
      rw [List.filterMap_cons_none hnone, ih h.tail, List.getLast?_cons_cons]

namespace TokenPass

theorem getLast?_take_succ {l us : List Token} {t : Token} {n : Nat} (h : l.drop n = t :: us) :
    (l.take (n + 1)).getLast? = some t := by
  rw [List.take_add_one, ← List.head?_drop, h, List.head?_cons]
  exact List.getLast?_concat

/-- The last token that a pass takes is closed: it is the word of an assignment or its value. -/
theorem isUnclosed_of_taken (all : List Token) {ts : List Token} {n taken : Nat}
    (hn : all.drop n = ts)
    (htaken : ∀ t ∈ (all.take taken).getLast?, t.isUnclosed = false) :
    ∀ t ∈ (all.take (run n taken ts).taken).getLast?, t.isUnclosed = false := by
  fun_induction run n taken ts with
  | case1 n taken r ts ih => exact ih (drop_succ_of_drop_eq_cons hn) htaken
  | case3 n taken w i hi hnil q content ts ih =>
    have hn' := drop_succ_of_drop_eq_cons hn
    refine ih (drop_succ_of_drop_eq_cons hn') ?_
    rw [getLast?_take_succ hn']
    rintro t ⟨⟩
    rfl
  | case6 n taken w ts i hi hne ih =>
    refine ih (drop_succ_of_drop_eq_cons hn) ?_
    rw [getLast?_take_succ hn]
    rintro t ⟨⟩
    rfl
  | case2 => exact htaken
  | case4 => exact htaken
  | case5 => exact htaken
  | case7 => exact htaken

end TokenPass

namespace Command

/-- **The values behind the assignments have the unclosed quote of the line**, if there is one. -/
theorem filterMap_unclosedAt?_values (place : QuotePlace) (s : List Char) :
    (values (Leading.read s).rest).filterMap (Value.unclosedAt? place) =
      ((lastToken? s).bind (Token.unclosedAt? place)).toList := by
  set n := (TokenPass.run 0 0 (tokenize s)).taken with hn
  have hrest : (Leading.read s).rest = textOf ((tokenize s).drop n) := by
    rw [Leading.read_eq_toLeading]
    rfl
  have hclosed : ∀ t ∈ ((tokenize s).take n).getLast?, t.isUnclosed = false :=
    TokenPass.isUnclosed_of_taken (tokenize s) rfl (by simp)
  have htokens : (values (Leading.read s).rest).filterMap (Value.unclosedAt? place) =
      ((tokenize s).drop n).filterMap (Token.unclosedAt? place) := by
    rw [hrest, values_textOf_drop, List.filterMap_filterMap]
    rfl
  rw [htokens, filterMap_unclosedAt? ((isCanonical_tokenize s).drop n), List.getLast?_drop]
  split
  next hle =>
    -- all tokens are taken, so the last of them is closed
    rw [List.take_of_length_le hle] at hclosed
    cases hlast : lastToken? s with
    | none => rfl
    | some t =>
      have hnone : t.unclosedAt? place = none := by
        rw [← Option.not_isSome_iff_eq_none, Token.isSome_unclosedAt?, hclosed t hlast]
        exact Bool.false_ne_true
      rw [Option.bind_some, hnone]
      rfl
  next => rfl

end Command

/-! ## The last item -/

theorem getLast?_of_cons {i j : Item} {items : List Item} (h : (i :: items).getLast? = some j)
    (hne : i ≠ j) : items.getLast? = some j := by
  cases items with
  | nil => exact absurd (by simpa using h) hne
  | cons k items => rwa [List.getLast?_cons_cons] at h

theorem Item.exists_of_unclosed? {i : Item} {e : UnclosedQuote} (h : i.unclosed? = some e) :
    ∃ key q content, i = .assignment ⟨key, .unclosed q content⟩ ∧
      e = ⟨.assignment, q, content⟩ := by
  rcases i with run | ⟨key, w | ⟨q, content⟩ | ⟨q, content⟩⟩ | ⟨key, text⟩ | ⟨q, text⟩
  · cases h
  · cases h
  · cases h
  · exact ⟨key, q, content, rfl, (Option.some.inj h).symm⟩
  · cases h
  · cases h

/-- What is left of a line whose last item is an assignment with an unclosed quote: that assignment,
with blanks in front.  `run` are the blanks read since the last assignment that was kept. -/
theorem Leading.exists_rest_of_unclosed {s run : List Char} {a : Assignment}
    (hrun : ∀ c ∈ run, isBlank c = true)
    (hlast : (assignmentItems s).getLast? = some (.assignment a))
    (hv : a.value.isUnclosed = true) :
    a.IsCanonical ∧ ∃ blanks, (∀ c ∈ blanks, isBlank c = true) ∧
      (readFrom (run ++ s) s).rest = blanks ++ a.text := by
  induction s using front_induction generalizing run with
  | stop s h =>
    rw [assignmentItems_of_stop h] at hlast
    have hmem : .assignment a ∈ (Item.first s).1 := by
      simpa using List.mem_of_getLast? hlast
    exact absurd (h _ hmem) Bool.false_ne_true
  | blank more rest hmore hend ih =>
    rw [assignmentItems_blank_append hmore hend] at hlast
    have hmore' : ∀ c ∈ run ++ more, isBlank c = true := List.forall_mem_append.2 ⟨hrun, hmore.2⟩
    rw [readFrom_blank_append hmore.2, ← List.append_assoc]
    exact ih hmore' (getLast?_of_cons hlast nofun)
  | closed b rest hb hbv hend ih =>
    rw [assignmentItems_assignment_append hb hend] at hlast
    have hne : Item.assignment b ≠ .assignment a := by
      rintro ⟨⟩
      rw [hv] at hbv
      cases hbv
    rw [readFrom_closed_append hb hbv hend]
    exact ih (List.forall_mem_nil _) (getLast?_of_cons hlast hne)
  | unclosed b hb hbv =>
    rw [assignmentItems_text hb] at hlast
    obtain rfl : b = a := by simpa using hlast
    exact ⟨hb, run, hrun, by rw [readFrom_unclosed hb hbv]⟩

namespace Command

/-- An assignment with an unclosed quote, read as values: its key with the equals sign, and the
quoted text. -/
theorem values_of_unclosed {key : List Char} {q : Char} {content blanks : List Char}
    (ha : Assignment.IsCanonical ⟨key, .unclosed q content⟩)
    (hblanks : ∀ c ∈ blanks, isBlank c = true) :
    values (blanks ++ Assignment.text ⟨key, .unclosed q content⟩) =
      [.word (key ++ ['=']), .unclosed q content] := by
  have hq : isQuote q = true := ha.value.1
  have hword : (Value.word (key ++ ['='])).IsCanonical := by
    refine ⟨by simp, List.forall_mem_append.2 ⟨ha.key.word.2, ?_⟩⟩
    exact List.forall_mem_singleton.2 ⟨rfl, rfl⟩
  have hend : (Value.word (key ++ ['='])).EndsBefore (q :: content) := by
    simp [Value.EndsBefore, endsWord, hq]
  have htext : Assignment.text ⟨key, .unclosed q content⟩ =
      (Value.word (key ++ ['='])).text ++ ((Value.unclosed q content).text ++ []) := by
    simp [Assignment.text, Value.text]
  rw [values_blank_append hblanks, htext,
    values_text_append hword (by simpa [Value.text] using hend),
    values_text_append ha.value (Value.endsBefore_nil _), values, tokenize_nil]
  rfl

/-- The errors of a line: that of its last item, and that of its last token. -/
theorem errors_parse (s : List Char) :
    (parse s).errors =
      ((assignmentItems s).getLast?.bind Item.unclosed?).toList ++
        ((lastToken? s).bind (Token.unclosedAt? .argument)).toList := by
  rw [← Leading.error?_readFrom s s, ← filterMap_unclosedAt?_values .argument s]
  rfl

/-- If the last item has an unclosed quote, its assignment is all there is behind those that are
kept. -/
theorem parse_of_unclosed {s key : List Char} {q : Char} {content : List Char}
    (hlast : (assignmentItems s).getLast? = some (.assignment ⟨key, .unclosed q content⟩)) :
    (parse s).program = .word (key ++ ['=']) ∧ (parse s).arguments = [.unclosed q content] ∧
      lastToken? s = some (.value (.unclosed q content)) := by
  obtain ⟨ha, blanks, hblanks, hrest⟩ :=
    Leading.exists_rest_of_unclosed (List.forall_mem_nil _) hlast rfl
  have hvalues : values (Leading.read s).rest = [.word (key ++ ['=']), .unclosed q content] :=
    (congrArg values hrest).trans (values_of_unclosed ha hblanks)
  have htoken := filterMap_unclosedAt?_values .argument s
  rw [hvalues] at htoken
  refine ⟨by rw [parse, hvalues]; rfl, by rw [parse, hvalues]; rfl, ?_⟩
  have hbind : (lastToken? s).bind (Token.unclosedAt? .argument) = some ⟨.argument, q, content⟩ :=
    Option.toList_eq_singleton_iff.1 htoken.symm
  obtain ⟨t, ht, hte⟩ := Option.bind_eq_some_iff.1 hbind
  obtain ⟨q, content, rfl, ⟨⟩⟩ := Token.exists_of_unclosedAt? hte
  exact ht

/-- **The errors of a line are its unclosed quote.**  If the last token is closed there is no error.
Else its quote is noted as that of an argument and refused as such, unless it is the value of the
last item: then it is noted as that of an assignment, too, and refused as that, and the assignment
is read again as a program, the key with its equals sign, and one argument. -/
theorem errors_cases (s : List Char) :
    let c : Command := parse s
    (∀ q content, lastToken? s ≠ some (.value (.unclosed q content))) ∧
        c.errors = [] ∧ parse? s = .ok c ∨
      ∃ q content, lastToken? s = some (.value (.unclosed q content)) ∧
        let ofArgument : UnclosedQuote := ⟨.argument, q, content⟩
        let ofAssignment : UnclosedQuote := ⟨.assignment, q, content⟩
        let EndsWith : List Char → Prop := fun key =>
          (assignmentItems s).getLast? = some (.assignment ⟨key, .unclosed q content⟩)
        (∀ key, ¬ EndsWith key) ∧ c.errors = [ofArgument] ∧ parse? s = .error ofArgument ∨
          ∃ key, EndsWith key ∧ c.errors = [ofAssignment, ofArgument] ∧
            c.program = .word (key ++ ['=']) ∧ c.arguments = [.unclosed q content] ∧
            parse? s = .error ofAssignment := by
  intro c
  have herrors := errors_parse s
  cases hitem : (assignmentItems s).getLast?.bind Item.unclosed? with
  | some e =>
    obtain ⟨i, hi, he⟩ := Option.bind_eq_some_iff.1 hitem
    obtain ⟨key, q, content, rfl, rfl⟩ := Item.exists_of_unclosed? he
    obtain ⟨hprogram, harguments, htoken⟩ := parse_of_unclosed hi
    rw [hitem, htoken] at herrors
    exact .inr ⟨q, content, htoken, .inr ⟨key, hi, herrors, hprogram, harguments, by
      rw [parse?, herrors]; rfl⟩⟩
  | none =>
    cases htoken : (lastToken? s).bind (Token.unclosedAt? .argument) with
    | none =>
      rw [hitem, htoken] at herrors
      refine .inl ⟨fun q content h => ?_, herrors, by rw [parse?, herrors]; rfl⟩
      rw [h] at htoken
      cases htoken
    | some e =>
      obtain ⟨t, ht, he⟩ := Option.bind_eq_some_iff.1 htoken
      obtain ⟨q, content, rfl, rfl⟩ := Token.exists_of_unclosedAt? he
      rw [hitem, htoken] at herrors
      refine .inr ⟨q, content, ht, .inl ⟨fun key hlast => ?_, herrors, by
        rw [parse?, herrors]; rfl⟩⟩
      rw [hlast] at hitem
      cases hitem

end Command

end ShellLine
