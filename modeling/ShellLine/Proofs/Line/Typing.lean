import Mathlib.Data.List.Induction
import ShellLine.Proofs.Command.SinglePass
import ShellLine.Proofs.Lex.Append
import ShellLine.Proofs.Line.Between

/-!
# Proofs/Line/Typing — what a text becomes when it is typed

A text that is typed into an empty line loses the blanks behind the first of each run, but only
outside quotes: `squeezed` cuts the runs of blanks among the tokens, and `insertText_empty` says
that this is what typing leaves.  The tokens stay the same otherwise (`tokenize_squeezed`), so a
command means the same typed as read (`command_insertText_empty`), and a text that was typed once
does not change when it is typed again (`text_insertText_empty`).

The engine is `squeezed_concat`, which says for a text what `insert_between_nil` says for a line:
one more character is dropped exactly if it is a blank behind a run of blanks.
-/

namespace ShellLine

/-! ## Runs of blanks cut to their first -/

namespace Token

/-- A run of blanks cut to its first blank; any other token as it is. -/
def squeeze : Token → Token
  | value v => value v
  | blank run => blank (run.take 1)

@[simp] theorem isBlankRun_squeeze (t : Token) : t.squeeze.isBlankRun = t.isBlankRun := by
  cases t <;> rfl

@[simp] theorem value?_squeeze (t : Token) : t.squeeze.value? = t.value? := by
  cases t <;> rfl

@[simp] theorem squeeze_squeeze (t : Token) : t.squeeze.squeeze = t.squeeze := by
  cases t with
  | value v => rfl
  | blank run => simp [squeeze, List.take_take]

theorem IsCanonical.squeeze {t : Token} (h : t.IsCanonical) : t.squeeze.IsCanonical := by
  cases t with
  | value v => exact h
  | blank run =>
    obtain ⟨hne, hall⟩ := h
    refine ⟨by simpa using hne, ?_⟩
    intro c hc
    exact hall c (List.mem_of_mem_take hc)

theorem mayPrecede_squeeze {t u : Token} : t.squeeze.MayPrecede u.squeeze ↔ t.MayPrecede u := by
  rcases t with (_ | _ | _) | _ <;> rcases u with (_ | _ | _) | _ <;> rfl

theorem text_squeeze_sublist (t : Token) : t.squeeze.text.Sublist t.text := by
  cases t with
  | value v => exact List.Sublist.refl _
  | blank run => exact List.take_sublist 1 run

end Token

theorem IsCanonical.map_squeeze {ts : List Token} (h : IsCanonical ts) :
    IsCanonical (ts.map Token.squeeze) := by
  constructor
  · intro u hu
    obtain ⟨t, ht, rfl⟩ := List.mem_map.1 hu
    exact (h.each t ht).squeeze
  · exact (List.isChain_map _).2 (h.chain.imp fun _ _ => Token.mayPrecede_squeeze.2)

/-- Cutting runs of blanks leaves the values. -/
theorem filterMap_value?_map_squeeze (ts : List Token) :
    (ts.map Token.squeeze).filterMap Token.value? = ts.filterMap Token.value? := by
  rw [List.filterMap_map]
  exact congrArg (fun f => ts.filterMap f) (funext Token.value?_squeeze)

/-- The text with each run of blanks among its tokens cut to the first blank. -/
def squeezed (s : List Char) : List Char := textOf ((tokenize s).map Token.squeeze)

/-- Cutting runs of blanks changes no other token. -/
theorem tokenize_squeezed (s : List Char) :
    tokenize (squeezed s) = (tokenize s).map Token.squeeze :=
  tokenize_textOf (isCanonical_tokenize s).map_squeeze

theorem squeezed_squeezed (s : List Char) : squeezed (squeezed s) = squeezed s := by
  have hagain : Token.squeeze ∘ Token.squeeze = Token.squeeze := funext Token.squeeze_squeeze
  rw [squeezed, tokenize_squeezed, List.map_map, hagain, squeezed]

/-- After the cut each run of blanks is a single one. -/
theorem length_of_blank_mem_squeezed {s run : List Char}
    (h : Token.blank run ∈ tokenize (squeezed s)) : run.length = 1 := by
  have hne : run ≠ [] := ((isCanonical_tokenize (squeezed s)).each _ h).1
  rw [tokenize_squeezed] at h
  obtain ⟨t, -, ht⟩ := List.mem_map.1 h
  cases t with
  | value v => cases ht
  | blank longer =>
    obtain rfl : longer.take 1 = run := by simpa [Token.squeeze] using ht
    have hpos := List.length_pos_iff.2 hne
    have hle := List.length_take_le 1 longer
    omega

theorem squeezed_sublist (s : List Char) : (squeezed s).Sublist s := by
  have h : ∀ ts : List Token, (textOf (ts.map Token.squeeze)).Sublist (textOf ts) := by
    intro ts
    induction ts with
    | nil => exact List.Sublist.refl _
    | cons t ts ih =>
      rw [List.map_cons, textOf_cons, textOf_cons]
      exact t.text_squeeze_sublist.append ih
  conv_rhs => rw [← textOf_tokenize s]
  exact h (tokenize s)

/-- Does the text end with a run of blanks outside quotes? -/
def endsWithBlanks (s : List Char) : Bool := (lastToken? s).any Token.isBlankRun

theorem endsWithBlanks_squeezed (s : List Char) :
    endsWithBlanks (squeezed s) = endsWithBlanks s := by
  rw [endsWithBlanks, endsWithBlanks, lastToken?, lastToken?, tokenize_squeezed,
    List.getLast?_map]
  cases (tokenize s).getLast? <;> simp

/-- One character alone is not cut. -/
theorem squeezed_singleton (c : Char) : squeezed [c] = [c] := by
  have hne : squeezed [c] ≠ [] := by
    intro hnil
    have htokens := tokenize_squeezed [c]
    simp [hnil, tokenize_cons] at htokens
  exact (List.sublist_singleton.1 (squeezed_sublist [c])).resolve_left hne

/-- A blank goes on with a run of blanks and is cut; any other character is kept. -/
theorem squeezed_text_concat {t : Token} (ht : t.IsCanonical) (c : Char) :
    squeezed (t.text ++ [c]) =
      if isBlank c && t.isBlankRun then t.squeeze.text else t.squeeze.text ++ [c] := by
  obtain ⟨hend, htokens⟩ | ⟨hend, u, htokens, hkind, htext⟩ := tokenize_text_concat ht c
  · have hkeep : (isBlank c && t.isBlankRun) = false := by
      cases t with
      | value v => exact Bool.and_false _
      | blank run => simpa [Token.isBlankRun, Token.EndsBefore] using hend
    rw [squeezed, htokens, List.map_cons, textOf_cons, ← squeezed, squeezed_singleton, hkeep]
    rfl
  · rw [squeezed, htokens, List.map_singleton, textOf_cons, textOf_nil, List.append_nil]
    cases t with
    | value v =>
      cases u with
      | value w => simpa [Token.squeeze, Token.isBlankRun] using htext
      | blank run => cases hkind
    | blank run =>
      cases u with
      | value w => cases hkind
      | blank longer =>
        obtain ⟨d, run, rfl⟩ := List.exists_cons_of_ne_nil ht.1
        obtain rfl : longer = d :: run ++ [c] := htext
        have hb : isBlank c = true := by simpa [Token.EndsBefore] using hend
        simp [hb, Token.isBlankRun, Token.squeeze, Token.text]

/-- **One more character is cut exactly if it is a blank behind a run of blanks.** -/
theorem squeezed_concat (s : List Char) (c : Char) :
    squeezed (s ++ [c]) =
      if isBlank c && endsWithBlanks s then squeezed s else squeezed s ++ [c] := by
  obtain hnil | ⟨ts, t, hts⟩ := List.eq_nil_or_concat (tokenize s)
  · obtain rfl : s = [] := by rw [← textOf_tokenize s, hnil, textOf_nil]
    rw [List.nil_append, squeezed_singleton]
    simp [endsWithBlanks, lastToken?, squeezed]
  · rw [List.concat_eq_append] at hts
    have ht : t.IsCanonical := (isCanonical_tokenize s).each t (by simp [hts])
    have hlast : endsWithBlanks s = t.isBlankRun := by simp [endsWithBlanks, lastToken?, hts]
    have hs : squeezed s = textOf (ts.map Token.squeeze) ++ t.squeeze.text := by
      simp [squeezed, hts]
    rw [squeezed, tokenize_of_tokenize_concat hts, List.map_append, textOf_append, ← squeezed,
      squeezed_text_concat ht, hlast, hs]
    split
    · rfl
    · rw [List.append_assoc]

/-! ## Typing at the end of a line -/

namespace Line

/-- At the end of a line a character is dropped exactly if it is a blank behind a run of blanks. -/
theorem insert_between_nil (s : List Char) (c : Char) :
    (between s []).insert c =
      if isBlank c && endsWithBlanks s then between s [] else between (s ++ [c]) [] := by
  have hover : (between s []).stepsOver c = false := by
    rw [stepsOver, rest_between]
    exact Bool.and_false _
  have hbeside : (between s []).besideBlank = endsWithBlanks s := by
    rw [besideBlank, start_between, rest_between]
    exact Bool.or_false _
  rw [insert_between, hover, hbeside]
  by_cases hq : isQuote c = true
  · simp [hq, isBlank_eq_false_of_isQuote hq]
  · simp [hq]

theorem insertText_append (l : Line) (s more : List Char) :
    l.insertText (s ++ more) = (l.insertText s).insertText more := List.foldl_append

/-- **Typing a text leaves it with its runs of blanks cut**, and the cursor at the end. -/
theorem insertText_empty (s : List Char) : empty.insertText s = between (squeezed s) [] := by
  induction s using List.reverseRecOn with
  | nil => simp [squeezed, insertText, empty, between]
  | append_singleton s c ih =>
    have hstep : ∀ l : Line, l.insertText [c] = l.insert c := fun _ => rfl
    rw [insertText_append, ih, hstep, insert_between_nil, endsWithBlanks_squeezed, squeezed_concat]
    split <;> rfl

/-- **Typing gives a normal form.**  What is typed into an empty line has the tokens of the text,
each run of blanks cut to its first; the cursor is at the end; and typed again it stays the same. -/
theorem text_insertText_empty (s : List Char) :
    let typed : Line := empty.insertText s
    typed.text = textOf ((tokenize s).map Token.squeeze) ∧
      tokenize typed.text = (tokenize s).map Token.squeeze ∧
      (∀ run, Token.blank run ∈ tokenize typed.text → run.length = 1) ∧
      (tokenize typed.text).filterMap Token.value? = (tokenize s).filterMap Token.value? ∧
      typed.cursor = typed.text.length ∧
      empty.insertText typed.text = typed := by
  intro typed
  have htyped : typed = between (squeezed s) [] := insertText_empty s
  have htext : typed.text = squeezed s := by rw [htyped, text_between, List.append_nil]
  have htokens : tokenize typed.text = (tokenize s).map Token.squeeze := by
    rw [htext, tokenize_squeezed]
  refine ⟨htext, htokens, ?_, ?_, ?_, ?_⟩
  · intro run hrun
    rw [htext] at hrun
    exact length_of_blank_mem_squeezed hrun
  · rw [htokens, filterMap_value?_map_squeeze]
  · rw [htext, htyped, cursor_between]
  · rw [htext, insertText_empty, squeezed_squeezed, htyped]

end Line

/-! ## The command that a typed text makes -/

/-- The pass over tokens does not look into runs of blanks. -/
theorem TokenPass.run_map_squeeze (n taken : Nat) (ts : List Token) :
    run n taken (ts.map Token.squeeze) = run n taken ts := by
  fun_induction run n taken ts with
  | case1 n taken r ts ih => simpa [Token.squeeze, run] using ih
  | case2 n taken w ts hi => simp [Token.squeeze, run, hi]
  | case3 n taken w i hi hnil q content ts ih => simp [Token.squeeze, run, hi, hnil, ih]
  | case4 n taken w i hi hnil q content ts => simp [Token.squeeze, run, hi, hnil]
  | case5 n taken w ts i hi hnil hquoted hunclosed =>
    rcases ts with _ | ⟨(_ | ⟨q, content⟩ | ⟨q, content⟩) | _, us⟩
    · simp [Token.squeeze, run, hi, hnil]
    · simp [Token.squeeze, run, hi, hnil]
    · exact absurd rfl (hquoted q content us)
    · exact absurd rfl (hunclosed q content us)
    · simp [Token.squeeze, run, hi, hnil]
  | case6 n taken w ts i hi hne ih => simp [Token.squeeze, run, hi, hne, ih]
  | case7 ts n taken hblank hword =>
    rcases ts with _ | ⟨(w | ⟨q, content⟩ | ⟨q, content⟩) | r, us⟩
    · rfl
    · exact absurd rfl (hword w us)
    · rfl
    · rfl
    · exact absurd rfl (hblank r us)

/-- **A command means the same typed as read.**  Typing only drops characters, and what it leaves
holds the same assignments, program, arguments and unclosed quotes. -/
theorem Line.command_insertText_empty (s : List Char) :
    let typed : Line := Line.empty.insertText s
    typed.text.Sublist s ∧
      typed.command.assignments = (Command.parse s).assignments ∧
      typed.command.program = (Command.parse s).program ∧
      typed.command.arguments = (Command.parse s).arguments ∧
      typed.command.errors = (Command.parse s).errors := by
  have hfront : Leading.read (squeezed s) =
      (TokenPass.run 0 0 (tokenize s)).toLeading (tokenize (squeezed s)) := by
    rw [Leading.read_eq_toLeading, tokenize_squeezed, TokenPass.run_map_squeeze]
  have hdrop (n : Nat) : Command.values (textOf ((tokenize (squeezed s)).drop n)) =
      Command.values (textOf ((tokenize s).drop n)) := by
    rw [Command.values_textOf_drop, Command.values_textOf_drop, tokenize_squeezed, ← List.map_drop,
      filterMap_value?_map_squeeze]
  intro typed
  have htext : typed.text = squeezed s := by
    rw [show typed = Line.between (squeezed s) [] from Line.insertText_empty s, Line.text_between,
      List.append_nil]
  have hcommand : typed.command = Command.parse (squeezed s) := congrArg Command.parse htext
  refine ⟨?_, ?_⟩
  · rw [htext]
    exact squeezed_sublist s
  · rw [hcommand]
    simp only [Command.parse, hfront, Leading.read_eq_toLeading s, TokenPass.toLeading, hdrop,
      and_self]

example : (Line.empty.insertText "a  b".toList).text = "a b".toList := by decide +kernel

end ShellLine
