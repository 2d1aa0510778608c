import ShellLine.Proofs.Command.Items

/-!
# Proofs/Command/Printing — commands that are written out and read back

An `Invocation` is what a command line asks for: assignments, perhaps a program, and its arguments.
`Invocation.written` writes one out, with any blanks between its parts and around them.
`parse_written` says that reading gives back the same parts, notes no error, and finds the end of
the assignments where they were written.

The engine is one lemma for each part in front of some text: blanks are passed over, an assignment
is taken, a program ends the assignments, a value is taken.  What follows a part begins with a
blank, so each part ends where it was written to end.
-/

namespace ShellLine

/-! ## Invocations -/

/-- What a command line asks for: assignments, perhaps a program, and its arguments. -/
structure Invocation where
  assignments : List Assignment
  program? : Option Value
  arguments : List Value

/-- Can the value stand anywhere in a line?  It is canonical, and its quote is closed. -/
structure Value.IsClosed (v : Value) : Prop where
  canonical : v.IsCanonical
  closed : v.isUnclosed = false

/-- Can the assignment be written out?  Its key is not empty and holds nothing that ends a key. -/
structure Assignment.IsWritable (a : Assignment) : Prop where
  key_ne_nil : a.key ≠ []
  key : ∀ c ∈ a.key, endsKey c = false
  value : a.value.IsClosed

/-- Can the value be a program?  A word with an equals sign behind its first character would be an
assignment. -/
def Value.NamesProgram : Value → Prop
  | .word w => '=' ∉ w.tail
  | _ => True

namespace Invocation

/-- The values behind the assignments. -/
def words (i : Invocation) : List Value := i.program?.toList ++ i.arguments

/-- The texts of all parts, in order. -/
def parts (i : Invocation) : List (List Char) :=
  i.assignments.map Assignment.text ++ i.words.map Value.text

/-- Can the invocation be written out? -/
structure IsWritable (i : Invocation) : Prop where
  assignments : ∀ a ∈ i.assignments, a.IsWritable
  program : ∀ v ∈ i.program?, v.IsClosed ∧ v.NamesProgram
  arguments : ∀ v ∈ i.arguments, v.IsClosed
  arguments_eq_nil : i.program? = none → i.arguments = []

end Invocation

/-! ## Spacing -/

/-- The blanks of a line that is written out: those in front, those between its parts, of which
there is at least one each time, and those at the end. -/
structure Spacing where
  lead : List Char
  gap : Nat → List Char
  trail : List Char
  isBlank_of_mem_lead : ∀ c ∈ lead, isBlank c = true
  isBlankText_gap : ∀ n, isBlankText (gap n) = true
  isBlank_of_mem_trail : ∀ c ∈ trail, isBlank c = true

namespace Spacing

/-- The texts with a gap in front of each, from gap `n` on. -/
def spread (sp : Spacing) : Nat → List (List Char) → List Char
  | _, [] => []
  | n, t :: ts => sp.gap n ++ (t ++ sp.spread (n + 1) ts)

/-- The texts with gaps between them, from gap `n` on. -/
def join (sp : Spacing) (n : Nat) : List (List Char) → List Char
  | [] => []
  | t :: ts => t ++ sp.spread n ts

theorem spread_append (sp : Spacing) (n : Nat) (ts us : List (List Char)) :
    sp.spread n (ts ++ us) = sp.spread n ts ++ sp.spread (n + ts.length) us := by
  induction ts generalizing n with
  | nil => rfl
  | cons t ts ih =>
    rw [List.cons_append, spread, ih, spread, List.length_cons, Nat.add_right_comm, Nat.add_assoc]
    simp only [List.append_assoc]

theorem isBlank_of_mem_gap (sp : Spacing) (n : Nat) : ∀ c ∈ sp.gap n, isBlank c = true := by
  have h := sp.isBlankText_gap n
  rw [isBlankText, Bool.and_eq_true, List.all_eq_true] at h
  exact h.2

/-- A gap in front of some texts is a run of blanks in front of the first. -/
theorem exists_spread_eq (sp : Spacing) (n : Nat) (ts : List (List Char)) :
    ∃ run, (∀ c ∈ run, isBlank c = true) ∧ sp.spread n ts = run ++ sp.join (n + 1) ts := by
  cases ts with
  | nil => exact ⟨[], by simp, rfl⟩
  | cons t ts => exact ⟨sp.gap n, sp.isBlank_of_mem_gap n, rfl⟩

/-- Texts that are spread out begin with a blank. -/
theorem isBlank_head_spread (sp : Spacing) (n : Nat) (ts : List (List Char)) {rest : List Char}
    (hrest : ∀ d ∈ rest.head?, isBlank d = true) :
    ∀ d ∈ (sp.spread n ts ++ rest).head?, isBlank d = true := by
  cases ts with
  | nil => exact hrest
  | cons t ts =>
    have hgap : sp.gap n ≠ [] := by
      intro hnil
      simpa [isBlankText, hnil] using sp.isBlankText_gap n
    obtain ⟨c, run, hrun⟩ := List.exists_cons_of_ne_nil hgap
    intro d hd
    rw [spread, hrun, List.cons_append, List.cons_append, List.head?_cons, Option.mem_some] at hd
    exact hd ▸ sp.isBlank_of_mem_gap n c (by simp [hrun])

theorem isBlank_head_trail (sp : Spacing) : ∀ d ∈ sp.trail.head?, isBlank d = true := by
  intro d hd
  exact sp.isBlank_of_mem_trail d (List.mem_of_mem_head? hd)

end Spacing

/-- The line that an invocation is written as. -/
def Invocation.written (i : Invocation) (sp : Spacing) : List Char :=
  sp.lead ++ (sp.join 0 i.parts ++ sp.trail)

/-- The front of that line, up to the end of the last assignment. -/
def Invocation.writtenFront (i : Invocation) (sp : Spacing) : List Char :=
  if i.assignments.isEmpty then [] else sp.lead ++ sp.join 0 (i.assignments.map Assignment.text)

/-! ## One part in front of some text -/

namespace Value.IsClosed

variable {v : Value}

theorem unclosedAt?_eq_none (hv : v.IsClosed) (place : QuotePlace) :
    v.unclosedAt? place = none :=
  unclosedAt?_of_not_isUnclosed hv.closed place

/-- A closed value ends in front of a blank. -/
theorem endsBefore (hv : v.IsClosed) {rest : List Char}
    (hrest : ∀ d ∈ rest.head?, isBlank d = true) : v.EndsBefore rest := by
  rcases v with w | ⟨q, content⟩ | ⟨q, content⟩
  · intro d hd
    simp [endsWord, hrest d hd]
  · trivial
  · cases hv.closed

end Value.IsClosed

/-- What is written out can stand in a line. -/
theorem Assignment.IsWritable.isCanonical {a : Assignment} (ha : a.IsWritable) :
    a.IsCanonical := by
  obtain ⟨key, v⟩ := a
  obtain ⟨c, k, rfl⟩ : ∃ c k, key = c :: k := List.exists_cons_of_ne_nil ha.key_ne_nil
  have hc : endsKey c = false := ha.key c (by simp)
  simp only [endsKey, Bool.or_eq_false_iff] at hc
  exact ⟨isName_cons_iff.2 ⟨⟨hc.1.1, hc.2⟩, fun d hd => ha.key d (by simp [hd])⟩,
    ha.value.canonical⟩

namespace Leading

theorem readFrom_dropWhile (kept s : List Char) :
    readFrom kept (s.dropWhile isBlank) = readFrom kept s := by
  cases s with
  | nil => rfl
  | cons c s =>
    by_cases hb : isBlank c = true
    · have hread : Item.read c s =
          (some (.blank (c :: s.takeWhile isBlank)), s.dropWhile isBlank) := by
        simp [Item.read, isQuote_eq_false_of_isBlank hb, hb]
      rw [List.dropWhile_cons_of_pos hb, readFrom_of_blank hread]
    · rw [List.dropWhile_cons_of_neg hb]

/-- Blanks in front are passed over. -/
theorem readFrom_blank_append {run : List Char} (hrun : ∀ c ∈ run, isBlank c = true)
    (kept rest : List Char) : readFrom kept (run ++ rest) = readFrom kept rest := by
  rw [← readFrom_dropWhile, List.dropWhile_append_of_pos hrun, readFrom_dropWhile]

/-- An assignment in front is taken. -/
theorem readFrom_assignment_append {a : Assignment} (ha : a.IsWritable) (kept : List Char)
    {rest : List Char} (hend : a.value.EndsBefore rest) :
    readFrom kept (a.text ++ rest) = (readFrom rest rest).cons a :=
  readFrom_closed_append ha.isCanonical ha.value.closed hend

/-- A program in front ends the assignments. -/
theorem readFrom_program_append {v : Value} (hv : v.IsClosed) (hname : v.NamesProgram)
    (kept : List Char) {rest : List Char} (hend : v.EndsBefore rest) :
    readFrom kept (v.text ++ rest) = ⟨[], kept, none⟩ := by
  rcases v with w | ⟨q, content⟩ | ⟨q, content⟩
  · obtain ⟨c, w, rfl⟩ := List.exists_cons_of_ne_nil hv.canonical.1
    exact readFrom_bare hv.canonical hname hend
  · have hq : isQuote q = true := hv.canonical.1
    exact readFrom_of_isError (by simp [Item.read, hq, Item.isError])
  · cases hv.closed

end Leading

namespace Command

theorem values_dropWhile (s : List Char) : values (s.dropWhile isBlank) = values s := by
  cases s with
  | nil => rfl
  | cons c s =>
    by_cases hb : isBlank c = true
    · have hread : Token.read c s =
          (.blank (c :: s.takeWhile isBlank), s.dropWhile isBlank) := by
        simp [Token.read, hb]
      rw [List.dropWhile_cons_of_pos hb, values, values, tokenize_cons, hread]
      rfl
    · rw [List.dropWhile_cons_of_neg hb]

/-- Blanks in front are no value. -/
theorem values_blank_append {run : List Char} (hrun : ∀ c ∈ run, isBlank c = true)
    (rest : List Char) : values (run ++ rest) = values rest := by
  rw [← values_dropWhile, List.dropWhile_append_of_pos hrun, values_dropWhile]

/-- A value in front is taken. -/
theorem values_text_append {v : Value} (hv : v.IsCanonical) {rest : List Char}
    (hend : v.EndsBefore rest) : values (v.text ++ rest) = v :: values rest := by
  have hne : v.text ≠ [] := Token.IsCanonical.text_ne_nil (t := .value v) hv
  obtain ⟨c, s, hs⟩ := List.exists_cons_of_ne_nil hne
  have hread : Token.read c (s ++ rest) = (.value v, rest) :=
    Token.read_eq_iff.2 ⟨hv, hend, congrArg (· ++ rest) hs⟩
  rw [hs, List.cons_append, values, tokenize_cons, hread]
  rfl

end Command

/-! ## All parts, one after the other -/

section

variable (sp : Spacing)

/-- Assignments with gaps between them are taken, if what follows them goes on with none. -/
theorem Leading.readFrom_assignments {a : Assignment} {as : List Assignment}
    (has : ∀ b ∈ a :: as, b.IsWritable) {rest : List Char}
    (hblank : ∀ d ∈ rest.head?, isBlank d = true)
    (hstop : ∀ kept, readFrom kept rest = ⟨[], kept, none⟩) (n : Nat) (kept : List Char) :
    readFrom kept (a.text ++ (sp.spread n (as.map Assignment.text) ++ rest)) =
      ⟨a :: as, rest, none⟩ := by
  induction as generalizing a n kept with
  | nil =>
    have ha := has a (by simp)
    rw [List.map_nil, Spacing.spread, List.nil_append,
      readFrom_assignment_append ha kept (ha.value.endsBefore hblank), hstop]
    rfl
  | cons b as ih =>
    have ha := has a (by simp)
    have hbs : ∀ c ∈ b :: as, c.IsWritable := fun c hc => has c (by simp [List.mem_cons.1 hc])
    have hend := sp.isBlank_head_spread n ((b :: as).map Assignment.text) hblank
    rw [readFrom_assignment_append ha kept (ha.value.endsBefore hend), List.map_cons,
      Spacing.spread, List.append_assoc, List.append_assoc,
      readFrom_blank_append (sp.isBlank_of_mem_gap n), ih hbs]
    rfl

/-- Values with gaps between them are taken. -/
theorem Command.values_join {vs : List Value} (hvs : ∀ v ∈ vs, v.IsClosed) (n : Nat) :
    values (sp.join n (vs.map Value.text) ++ sp.trail) = vs := by
  induction vs generalizing n with
  | nil =>
    have h := values_blank_append sp.isBlank_of_mem_trail []
    rw [List.append_nil] at h
    exact h.trans (by simp [values])
  | cons v vs ih =>
    have hv := hvs v (by simp)
    have hend := sp.isBlank_head_spread n (vs.map Value.text) sp.isBlank_head_trail
    obtain ⟨run, hrun, hspread⟩ := sp.exists_spread_eq n (vs.map Value.text)
    rw [List.map_cons, Spacing.join, List.append_assoc,
      values_text_append hv.canonical (hv.endsBefore hend), hspread, List.append_assoc,
      values_blank_append hrun, ih fun w hw => hvs w (by simp [hw])]

namespace Invocation

variable {i : Invocation}

/-- The values behind the assignments go on with no assignment. -/
theorem IsWritable.readFrom_words (hi : i.IsWritable) (n : Nat) (kept : List Char) :
    Leading.readFrom kept (sp.join n (i.words.map Value.text) ++ sp.trail) = ⟨[], kept, none⟩ := by
  cases hp : i.program? with
  | none =>
    have h := Leading.readFrom_blank_append sp.isBlank_of_mem_trail kept []
    rw [List.append_nil] at h
    rw [words, hp, hi.arguments_eq_nil hp]
    exact h.trans (by rw [Leading.readFrom])
  | some p =>
    obtain ⟨hclosed, hname⟩ := hi.program p (by simp [hp])
    have hend := sp.isBlank_head_spread n (i.arguments.map Value.text) sp.isBlank_head_trail
    rw [words, hp, Option.toList_some, List.singleton_append, List.map_cons, Spacing.join,
      List.append_assoc]
    exact Leading.readFrom_program_append hclosed hname kept (hclosed.endsBefore hend)

theorem IsWritable.isClosed_words (hi : i.IsWritable) : ∀ v ∈ i.words, v.IsClosed := by
  intro v hv
  obtain hv | hv := List.mem_append.1 hv
  · exact (hi.program v (Option.mem_toList.1 hv)).1
  · exact hi.arguments v hv

/-- **A line that is written out is its front, with the assignments, and the rest, with the
values.** -/
theorem IsWritable.exists_rest (hi : i.IsWritable) :
    ∃ rest, i.written sp = i.writtenFront sp ++ rest ∧
      Leading.read (i.written sp) = ⟨i.assignments, rest, none⟩ ∧
      Command.values rest = i.words := by
  cases has : i.assignments with
  | nil =>
    have hwritten : i.written sp =
        sp.lead ++ (sp.join 0 (i.words.map Value.text) ++ sp.trail) := by
      rw [written, parts, has]
      rfl
    refine ⟨i.written sp, by simp [writtenFront, has], ?_, ?_⟩
    · rw [Leading.read, hwritten, Leading.readFrom_blank_append sp.isBlank_of_mem_lead,
        hi.readFrom_words]
    · rw [hwritten, Command.values_blank_append sp.isBlank_of_mem_lead,
        Command.values_join sp hi.isClosed_words]
  | cons a as =>
    -- the gap in front of the values has the number of assignments behind the first
    obtain ⟨run, hrun, hspread⟩ := sp.exists_spread_eq as.length (i.words.map Value.text)
    have hwritten : i.written sp = sp.lead ++ (a.text ++ (sp.spread 0 (as.map Assignment.text) ++
        (sp.spread as.length (i.words.map Value.text) ++ sp.trail))) := by
      rw [written, parts, has, List.map_cons, List.cons_append, Spacing.join,
        Spacing.spread_append, List.length_map, Nat.zero_add]
      simp only [List.append_assoc]
    have hblank := sp.isBlank_head_spread as.length (i.words.map Value.text) sp.isBlank_head_trail
    have hstop : ∀ kept, Leading.readFrom kept
        (sp.spread as.length (i.words.map Value.text) ++ sp.trail) = ⟨[], kept, none⟩ := by
      intro kept
      rw [hspread, List.append_assoc, Leading.readFrom_blank_append hrun, hi.readFrom_words]
    refine ⟨sp.spread as.length (i.words.map Value.text) ++ sp.trail, ?_, ?_, ?_⟩
    · rw [hwritten, writtenFront, has]
      simp [Spacing.join]
    · rw [Leading.read, hwritten, Leading.readFrom_blank_append sp.isBlank_of_mem_lead,
        Leading.readFrom_assignments sp (has ▸ hi.assignments) hblank hstop]
    · rw [hspread, List.append_assoc, Command.values_blank_append hrun,
        Command.values_join sp hi.isClosed_words]

end Invocation

end

/-- **Reading undoes writing.**  Whatever blanks stand between the parts of an invocation, the line
is read as its assignments, its program and its arguments, without an error, and the assignments
end where they were written to end. -/
theorem Invocation.parse_written {i : Invocation} (hi : i.IsWritable) (sp : Spacing) :
    Command.parse (i.written sp) =
      { assignments := i.assignments
        program := i.program?.getD (.word [])
        arguments := i.arguments
        offset := (i.writtenFront sp).length
        errors := [] } := by
  obtain ⟨rest, hwritten, hfront, hvalues⟩ := hi.exists_rest sp
  have hoffset : (i.written sp).length - rest.length = (i.writtenFront sp).length := by
    rw [hwritten, List.length_append, Nat.add_sub_cancel]
  have herrors : i.words.filterMap (Value.unclosedAt? .argument) = [] :=
    List.filterMap_eq_nil_iff.2 fun v hv => (hi.isClosed_words v hv).unclosedAt?_eq_none _
  have hwords : i.words.headD (.word []) = i.program?.getD (.word []) ∧
      i.words.tail = i.arguments := by
    cases hp : i.program? with
    | none => simp [words, hp, hi.arguments_eq_nil hp]
    | some p => simp [words, hp]
  simp only [Command.parse, hfront, hvalues, hoffset, herrors, hwords.1, hwords.2]
  rfl

/-- An escaped quote and an equals sign in values, a program that begins with an equals sign, an
empty argument, and blanks of several kinds. -/
theorem Invocation.parse_written_escaped :
    let quoted : Assignment := ⟨['A'], .quoted '\x22' ['\x5c', '\x22', '=']⟩
    let bare : Assignment := ⟨['B'], .word ['b', '=', 'c']⟩
    let i : Invocation := ⟨[quoted, bare], some (.word ['=', 'p']), [.quoted '\x27' []]⟩
    i.IsWritable ∧
      Command.parse [' ', 'A', '=', '\x22', '\x5c', '\x22', '=', '\x22', '\t', ' ', 'B', '=', 'b',
          '=', 'c', ' ', '=', 'p', ' ', '\x27', '\x27', '\n'] =
        ⟨[quoted, bare], .word ['=', 'p'], [.quoted '\x27' []], 15, []⟩ := by
  intro quoted bare i
  have hquoted : quoted.IsWritable :=
    ⟨List.cons_ne_nil _ _, List.forall_mem_singleton.2 rfl, by decide, rfl⟩
  have hbare : bare.IsWritable :=
    ⟨List.cons_ne_nil _ _, List.forall_mem_singleton.2 rfl, by decide, rfl⟩
  have hi : i.IsWritable := by
    refine ⟨?_, ?_, ?_, nofun⟩
    · simpa [i] using ⟨hquoted, hbare⟩
    · rintro v ⟨⟩
      exact ⟨⟨by decide, rfl⟩, by simp [Value.NamesProgram]⟩
    · intro v hv
      obtain rfl := List.mem_singleton.1 hv
      exact ⟨by decide, rfl⟩
  let sp : Spacing :=
    { lead := [' ']
      gap := fun n => if n = 0 then ['\t', ' '] else [' ']
      trail := ['\n']
      isBlank_of_mem_lead := List.forall_mem_singleton.2 rfl
      isBlankText_gap := by
        intro n
        split <;> rfl
      isBlank_of_mem_trail := List.forall_mem_singleton.2 rfl }
  exact ⟨hi, parse_written hi sp⟩

end ShellLine
