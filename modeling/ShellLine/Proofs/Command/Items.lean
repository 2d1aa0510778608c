import ShellLine.Proofs.Command.SinglePass

/-!
# Proofs/Command/Items — what stands in front of a command, item by item

The front of a line is read item by item: blanks and assignments, until a name, an error or the end
of the line.

* `Item.first_cases` says what a text can begin with, `Item.first_blank_append` and
  `Item.first_assignment_append` that blanks and assignments are read wherever they end, and
  `items_induction` is the induction along that reading.
* `isChain_assignmentItems` is the order in which items may stand, and `exists_itemsText_append`
  says what they leave of the line.
-/

namespace ShellLine

/-! ## Names and assignments -/

/-- Is the text a name?  It is a word with no equals sign behind its first character: so is a key,
and so is a program that is a word. -/
structure IsName (w : List Char) : Prop where
  word : (Value.word w).IsCanonical
  equals : '=' ∉ w.tail

/-- Can the assignment stand in a line?  A name is given a value. -/
structure Assignment.IsCanonical (a : Assignment) : Prop where
  key : IsName a.key
  value : a.value.IsCanonical

theorem isName_cons_iff {c : Char} {k : List Char} :
    IsName (c :: k) ↔
      (isQuote c = false ∧ isBlank c = false) ∧ ∀ d ∈ k, endsKey d = false := by
  constructor
  · rintro ⟨⟨-, hword⟩, heq⟩
    refine ⟨hword c (by simp), fun d hd => ?_⟩
    obtain ⟨hq, hb⟩ := hword d (by simp [hd])
    have hne : d ≠ '=' := fun h => heq (h ▸ hd)
    simp [endsKey, hq, hb, hne]
  · rintro ⟨hc, hk⟩
    simp only [endsKey, Bool.or_eq_false_iff, beq_eq_false_iff_ne] at hk
    refine ⟨⟨by simp, ?_⟩, fun hmem => (hk '=' hmem).1.2 rfl⟩
    exact List.forall_mem_cons.2 ⟨hc, fun d hd => ⟨(hk d hd).1.1, (hk d hd).2⟩⟩

namespace Item

variable {c : Char} {s rest key : List Char}

/-! ## The first item of a text -/

/-- The item in front of a text, and what is left. -/
def first : List Char → Option Item × List Char
  | [] => (none, [])
  | c :: s => read c s

theorem text_first {i : Item} (h : first s = (some i, rest)) : i.text ++ rest = s := by
  cases s with
  | nil => simp [first] at h
  | cons c s => exact text_read h

/-- Nothing is read of a name that ends the text; it is passed over. -/
theorem first_name {w : List Char} (hw : IsName w) : first w = (none, []) := by
  obtain ⟨c, k, rfl⟩ := List.exists_cons_of_ne_nil hw.word.1
  have hk : ∀ d ∈ k, isQuote d = false ∧ isBlank d = false := fun d hd => hw.word.2 d (by simp [hd])
  have hread : read c (k ++ []) = readAfterKey (c :: k) [] :=
    read_key (hw.word.2 c (by simp)) hk hw.equals (by simp)
  rwa [List.append_nil] at hread

/-- A run of blanks in front is the first item. -/
theorem first_blank_append {run : List Char} (hrun : (Token.blank run).IsCanonical)
    (hend : (Token.blank run).EndsBefore rest) :
    first (run ++ rest) = (some (blank run), rest) := by
  obtain ⟨c, run, rfl⟩ := List.exists_cons_of_ne_nil hrun.1
  exact read_blank hrun hend

/-- An assignment in front is the first item. -/
theorem first_assignment_append {a : Assignment} (ha : a.IsCanonical)
    (hend : a.value.EndsBefore rest) :
    first (a.text ++ rest) = (some (assignment a), rest) := by
  obtain ⟨key, v⟩ := a
  obtain ⟨c, k, rfl⟩ : ∃ c k, key = c :: k := List.exists_cons_of_ne_nil ha.key.word.1
  have hword := ha.key.word.2
  have hread : read c (k ++ '=' :: (v.text ++ rest)) = _ :=
    read_key (hword c (by simp)) (fun d hd => hword d (by simp [hd])) ha.key.equals
      (by simp [endsKey])
  rw [readAfterKey_value ha.value hend] at hread
  simpa [Assignment.text, first] using hread

/-! ## What the first item can be -/

/-- **What stands behind a key**: nothing, an error, or an equals sign with a value behind it. -/
theorem readAfterKey_cases (key s : List Char) :
    s = [] ∨ (∃ i ∈ (readAfterKey key s).1, i.isError = true) ∨
      ∃ (v : Value) (rest : List Char),
        v.IsCanonical ∧ v.EndsBefore rest ∧ s = '=' :: (v.text ++ rest) := by
  unfold readAfterKey
  split
  next => exact .inl rfl
  next => exact .inr (.inl ⟨_, rfl, rfl⟩)
  next d s =>
    cases hb : isBlank d with
    | true => exact .inr (.inl ⟨_, rfl, rfl⟩)
    | false =>
      have htext : (Value.read d s).1.text ++ (Value.read d s).2 = d :: s := Value.text_read d s
      exact .inr (.inr ⟨_, _, isCanonical_valueRead hb s, endsBefore_valueRead d s, by rw [htext]⟩)
  next d s _ _ =>
    cases isBlank d with
    | true => exact .inr (.inl ⟨_, rfl, rfl⟩)
    | false => exact .inr (.inl ⟨_, rfl, rfl⟩)

/-- **What a text begins with**: nothing, a name that is all of it, an error, a run of blanks, or an
assignment. -/
theorem first_cases (s : List Char) :
    (s = [] ∨ IsName s) ∨ (∃ i ∈ (first s).1, i.isError = true) ∨
      (∃ run rest, (Token.blank run).IsCanonical ∧ (Token.blank run).EndsBefore rest ∧
        s = run ++ rest) ∨
      ∃ (a : Assignment) (rest : List Char),
        a.IsCanonical ∧ a.value.EndsBefore rest ∧ s = a.text ++ rest := by
  rcases s with _ | ⟨c, s⟩
  · exact .inl (.inl rfl)
  cases hq : isQuote c with
  | true => exact .inr (.inl ⟨.stray c [c], by simp [first, read, hq], rfl⟩)
  | false =>
    cases hb : isBlank c with
    | true =>
      have hread : Token.read c s = (.blank (c :: s.takeWhile isBlank), s.dropWhile isBlank) := by
        simp [Token.read, hb]
      obtain ⟨hrun, hend, htext⟩ := Token.read_eq_iff.1 hread
      exact .inr (.inr (.inl ⟨_, _, hrun, hend, htext.symm⟩))
    | false =>
      have hfirst : first (c :: s) = readAfterKey (c :: s.takeWhile fun d => !endsKey d)
          (s.dropWhile fun d => !endsKey d) := by simp [first, read, hq, hb]
      have hkey : IsName (c :: s.takeWhile fun d => !endsKey d) :=
        isName_cons_iff.2 ⟨⟨hq, hb⟩, fun d hd => by simpa using List.mem_takeWhile_imp hd⟩
      have hs : s.takeWhile (fun d => !endsKey d) ++ s.dropWhile (fun d => !endsKey d) = s :=
        List.takeWhile_append_dropWhile
      rw [hfirst]
      obtain hnil | herror | ⟨v, rest, hv, hend, hvalue⟩ := readAfterKey_cases
        (c :: s.takeWhile fun d => !endsKey d) (s.dropWhile fun d => !endsKey d)
      · rw [hnil, List.append_nil] at hs
        exact .inl (.inr (hs ▸ hkey))
      · exact .inr (.inl herror)
      · refine .inr (.inr (.inr ⟨⟨_, v⟩, rest, ⟨hkey, hv⟩, hend, ?_⟩))
        rw [hvalue] at hs
        simpa [Assignment.text] using hs.symm

/-- A text of which nothing is read is empty or a name. -/
theorem eq_nil_or_isName_of_first (h : (first s).1 = none) : s = [] ∨ IsName s := by
  obtain hs | ⟨i, hi, -⟩ | ⟨run, rest, hrun, hend, rfl⟩ | ⟨a, rest, ha, hend, rfl⟩ := first_cases s
  · exact hs
  · rw [h] at hi
    cases hi
  · rw [first_blank_append hrun hend] at h
    cases h
  · rw [first_assignment_append ha hend] at h
    cases h

/-- …and nothing is left of it. -/
theorem first_of_none (h : (first s).1 = none) : first s = (none, []) := by
  obtain rfl | hname := eq_nil_or_isName_of_first h
  · rfl
  · exact first_name hname

/-- **What an item that is no error can be**: a run of blanks or an assignment, which ends in front
of what is left. -/
theorem cases_of_first {i : Item} (h : first s = (some i, rest)) (hi : i.isError = false) :
    (∃ run, i = blank run ∧ (Token.blank run).IsCanonical ∧ (Token.blank run).EndsBefore rest) ∨
      ∃ a, i = assignment a ∧ a.IsCanonical ∧ a.value.EndsBefore rest := by
  obtain (rfl | hname) | ⟨j, hj, herror⟩ | ⟨run, left, hrun, hend, rfl⟩ |
    ⟨a, left, ha, hend, rfl⟩ := first_cases s
  · cases h
  · rw [first_name hname] at h
    cases h
  · rw [h] at hj
    cases hj
    rw [hi] at herror
    cases herror
  · rw [first_blank_append hrun hend] at h
    cases h
    exact .inl ⟨run, rfl, hrun, hend⟩
  · rw [first_assignment_append ha hend] at h
    cases h
    exact .inr ⟨a, rfl, ha, hend⟩

theorem isCanonical_blank_of_first {run : List Char} (h : first s = (some (blank run), rest)) :
    (Token.blank run).IsCanonical ∧ (Token.blank run).EndsBefore rest := by
  obtain ⟨_, ⟨⟩, hrun⟩ | ⟨_, ⟨⟩, _⟩ := cases_of_first h rfl
  exact hrun

theorem isCanonical_assignment_of_first {a : Assignment}
    (h : first s = (some (assignment a), rest)) : a.IsCanonical ∧ a.value.EndsBefore rest := by
  obtain ⟨_, ⟨⟩, _⟩ | ⟨_, ⟨⟩, ha⟩ := cases_of_first h rfl
  exact ha

end Item

/-! ## Induction along the items -/

section Induction

variable {s rest : List Char} {i : Item}

@[simp] theorem assignmentItems_nil : assignmentItems [] = [] := by rw [assignmentItems]

theorem assignmentItems_of_first_none (h : (Item.first s).1 = none) : assignmentItems s = [] := by
  cases s with
  | nil => exact assignmentItems_nil
  | cons c s =>
    rw [assignmentItems]
    split <;> simp_all [Item.first]

theorem assignmentItems_of_first (h : Item.first s = (some i, rest)) :
    assignmentItems s = if i.isError then [i] else i :: assignmentItems rest := by
  cases s with
  | nil => simp [Item.first] at h
  | cons c s =>
    rw [assignmentItems]
    split <;> simp_all [Item.first]

theorem assignmentItems_name {w : List Char} (hw : IsName w) : assignmentItems w = [] :=
  assignmentItems_of_first_none (congrArg Prod.fst (Item.first_name hw))

theorem assignmentItems_of_isError (h : Item.first s = (some i, rest)) (hi : i.isError = true) :
    assignmentItems s = [i] := by
  rw [assignmentItems_of_first h, if_pos hi]

theorem assignmentItems_of_not_isError (h : Item.first s = (some i, rest))
    (hi : i.isError = false) : assignmentItems s = i :: assignmentItems rest := by
  rw [assignmentItems_of_first h, if_neg (by simp [hi])]

theorem head?_assignmentItems (s : List Char) : (assignmentItems s).head? = (Item.first s).1 := by
  rcases h : Item.first s with ⟨_ | i, rest⟩
  · rw [assignmentItems_of_first_none (congrArg Prod.fst h), List.head?_nil]
  · rw [assignmentItems_of_first h]
    split <;> rfl

/-- **Induction along the items in front of a text**: it is empty or a name, or it begins with an
error, or with an item that is none in front of a shorter text. -/
@[elab_as_elim]
theorem items_induction {motive : List Char → Prop} (nil : motive [])
    (name : ∀ w, IsName w → motive w)
    (error : ∀ s i rest, Item.first s = (some i, rest) → i.isError = true → motive s)
    (item : ∀ s i rest, Item.first s = (some i, rest) → i.isError = false → motive rest →
      motive s)
    (s : List Char) : motive s := by
  fun_induction assignmentItems s with
  | case1 => exact nil
  | case2 c s rest h =>
    have hfirst : (Item.first (c :: s)).1 = none := congrArg Prod.fst h
    exact name _ ((Item.eq_nil_or_isName_of_first hfirst).resolve_left (List.cons_ne_nil c s))
  | case3 c s i rest h _ hi => exact error _ i rest h hi
  | case4 c s i rest h _ hi ih => exact item _ i rest h (by simpa using hi) ih

namespace Leading

variable {kept : List Char}

theorem readFrom_of_stop (h : ∀ i ∈ (Item.first s).1, i.isError = true) :
    readFrom kept s = ⟨[], kept, none⟩ := by
  cases s with
  | nil => rw [readFrom]
  | cons c s => exact readFrom_of_isError h

theorem readFrom_of_first {a : Assignment} (h : Item.first s = (some (.assignment a), rest)) :
    readFrom kept s =
      (a.value.unclosedAt? .assignment).elim ((readFrom rest rest).cons a)
        fun e => ⟨[], kept, some e⟩ := by
  cases s with
  | nil => simp [Item.first] at h
  | cons c s => exact readFrom_of_assignment h

theorem readFrom_closed_append {a : Assignment} (ha : a.IsCanonical)
    (hv : a.value.isUnclosed = false) (hend : a.value.EndsBefore rest) :
    readFrom kept (a.text ++ rest) = (readFrom rest rest).cons a := by
  rw [readFrom_of_first (Item.first_assignment_append ha hend),
    Value.unclosedAt?_of_not_isUnclosed hv]
  rfl

end Leading

end Induction

/-! ## The shape of the items -/

/-- May the second item stand behind the first?  Nothing stands behind an error or an assignment
with an unclosed quote, and no run of blanks behind a run of blanks. -/
def Item.MayPrecede : Item → Item → Prop
  | .blank _, i => i.isBlankRun = false
  | .assignment a, _ => a.value.isUnclosed = false
  | .dangling _ _, _ => False
  | .stray _ _, _ => False

/-- The text of some items, one after the other. -/
def itemsText (items : List Item) : List Char := (items.map Item.text).flatten

@[simp] theorem itemsText_nil : itemsText [] = [] := rfl

@[simp] theorem itemsText_cons (i : Item) (items : List Item) :
    itemsText (i :: items) = i.text ++ itemsText items := by simp [itemsText]

@[simp] theorem itemsText_append (is js : List Item) :
    itemsText (is ++ js) = itemsText is ++ itemsText js := by simp [itemsText]

/-- Behind a run of blanks the next item is no such run. -/
theorem Item.isBlankRun_first {run rest : List Char} (hend : (Token.blank run).EndsBefore rest) :
    ∀ i ∈ (first rest).1, i.isBlankRun = false := by
  intro i hi
  rcases i with run' | a | ⟨key, text⟩ | ⟨q, text⟩
  · have hfirst : first rest = (some (blank run'), (first rest).2) := Prod.ext hi rfl
    obtain ⟨hrun', -⟩ := isCanonical_blank_of_first hfirst
    obtain ⟨d, run', rfl⟩ := List.exists_cons_of_ne_nil hrun'.1
    have hd : isBlank d = false := hend d (by rw [← text_first hfirst]; rfl)
    rw [hrun'.2 d (by simp)] at hd
    cases hd
  · rfl
  · rfl
  · rfl

/-- **Each item of a text may stand in front of the next.** -/
theorem isChain_assignmentItems (s : List Char) :
    (assignmentItems s).IsChain Item.MayPrecede := by
  induction s using items_induction with
  | nil => simp
  | name w hw => simp [assignmentItems_name hw]
  | error s i rest h hi => simp [assignmentItems_of_isError h hi]
  | item s i rest h hi ih =>
    rw [assignmentItems_of_not_isError h hi]
    refine List.isChain_cons.2 ⟨fun j hj => ?_, ih⟩
    rw [head?_assignmentItems] at hj
    obtain ⟨run, rfl, -, hend⟩ | ⟨a, rfl, -, hend⟩ := Item.cases_of_first h hi
    · exact Item.isBlankRun_first hend j hj
    · by_contra hunclosed
      obtain rfl : rest = [] := hend.eq_nil (by simpa [Item.MayPrecede] using hunclosed)
      simp [Item.first] at hj

/-- Only the last item can be an error. -/
theorem exists_isError_iff {items : List Item} (h : items.IsChain Item.MayPrecede) :
    (∃ i ∈ items, i.isError = true) ↔ ∃ i ∈ items.getLast?, i.isError = true := by
  induction items with
  | nil => simp
  | cons i items ih =>
    cases items with
    | nil => simp
    | cons j items =>
      obtain ⟨hij, hitems⟩ := List.isChain_cons_cons.1 h
      have hi : i.isError = false := by
        rcases i with _ | _ | _ | _
        · rfl
        · rfl
        · cases hij
        · cases hij
      rw [List.getLast?_cons_cons, ← ih hitems, List.exists_mem_cons_iff, hi]
      simp

/-- The items are the front of the text; without an error they leave nothing or a name. -/
theorem exists_itemsText_append (s : List Char) :
    ∃ rest, itemsText (assignmentItems s) ++ rest = s ∧
      ((∃ i ∈ assignmentItems s, i.isError = true) ∨ rest = [] ∨ IsName rest) := by
  induction s using items_induction with
  | nil => exact ⟨[], by simp, .inr (.inl rfl)⟩
  | name w hw => exact ⟨w, by simp [assignmentItems_name hw], .inr (.inr hw)⟩
  | error s i rest h hi =>
    rw [assignmentItems_of_isError h hi]
    exact ⟨rest, by simp [Item.text_first h], .inl ⟨i, by simp, hi⟩⟩
  | item s i rest h hi ih =>
    obtain ⟨left, htext, hleft⟩ := ih
    rw [assignmentItems_of_not_isError h hi]
    refine ⟨left, ?_, hleft.imp_left fun ⟨j, hj, herror⟩ => ⟨j, by simp [hj], herror⟩⟩
    rw [itemsText_cons, List.append_assoc, htext, Item.text_first h]

/-- An assignment with an unclosed quote ends the text. -/
theorem itemsText_of_isUnclosed {s : List Char} {a : Assignment}
    (ha : .assignment a ∈ assignmentItems s) (hunclosed : a.value.isUnclosed = true) :
    itemsText (assignmentItems s) = s := by
  induction s using items_induction with
  | nil => simp at ha
  | name w hw => simp [assignmentItems_name hw] at ha
  | error s i rest h hi =>
    rw [assignmentItems_of_isError h hi, List.mem_singleton] at ha
    rw [← ha] at hi
    cases hi
  | item s i rest h hi ih =>
    rw [assignmentItems_of_not_isError h hi] at ha ⊢
    rw [itemsText_cons]
    obtain rfl | ha := List.mem_cons.1 ha
    · obtain rfl : rest = [] := (Item.isCanonical_assignment_of_first h).2.eq_nil hunclosed
      simpa using Item.text_first h
    · rw [ih ha, Item.text_first h]

end ShellLine
