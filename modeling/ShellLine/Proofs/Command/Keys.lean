import ShellLine.Proofs.Command.Front

/-!
# Proofs/Command/Keys — the keys of the assignments of a line

A key ends at a quote, an equals sign or a blank, but its first character is taken as it is.  So the
key of an assignment is clean unless it begins with an equals sign, as in `=a=b`.

`Command.keys_of_line` says so of every assignment of a line and of its environment;
`not_forall_hasCleanKey` is that one exception.
-/

namespace ShellLine

/-- Is the key of the assignment clean?  It is not empty and holds nothing that ends a key. -/
structure Assignment.HasCleanKey (a : Assignment) : Prop where
  key_ne_nil : a.key ≠ []
  key : ∀ c ∈ a.key, endsKey c = false

/-! ## The key in the text of an assignment -/

theorem findIdx?_equals_append {k : List Char} (hk : '=' ∉ k) (rest : List Char) :
    (k ++ '=' :: rest).findIdx? (fun c => c == '=') = some k.length := by
  have hnone : k.findIdx? (fun c => c == '=') = none :=
    List.findIdx?_eq_none_iff.2 fun d hd => beq_false_of_ne fun h => hk (h ▸ hd)
  simp [List.findIdx?_append, hnone, List.findIdx?_cons]

namespace Assignment.IsCanonical

variable {a : Assignment}

/-- The first equals sign behind the first character of the text ends the key. -/
theorem equalsAt?_text (ha : a.IsCanonical) : equalsAt? a.text = some a.key.length := by
  obtain ⟨key, v⟩ := a
  obtain ⟨c, k, rfl⟩ : ∃ c k, key = c :: k := List.exists_cons_of_ne_nil ha.key.word.1
  have hk : '=' ∉ k := ha.key.equals
  have htail : (text ⟨c :: k, v⟩).tail = k ++ '=' :: v.text := rfl
  rw [equalsAt?, htail, findIdx?_equals_append hk]
  rfl

/-- An equals sign stands in a key at its start only. -/
theorem equals_mem_key_iff (ha : a.IsCanonical) : '=' ∈ a.key ↔ a.text.head? = some '=' := by
  obtain ⟨key, v⟩ := a
  obtain ⟨c, k, rfl⟩ : ∃ c k, key = c :: k := List.exists_cons_of_ne_nil ha.key.word.1
  have hk : '=' ∉ k := ha.key.equals
  simp [text, hk, eq_comm]

theorem hasCleanKey_iff (ha : a.IsCanonical) : a.HasCleanKey ↔ a.text.head? ≠ some '=' := by
  rw [Ne, ← ha.equals_mem_key_iff]
  constructor
  · intro h hmem
    exact absurd (h.key '=' hmem) (by decide)
  · intro h
    refine ⟨ha.key.word.1, fun c hc => ?_⟩
    obtain ⟨hq, hb⟩ := ha.key.word.2 c hc
    have hne : c ≠ '=' := fun heq => h (heq ▸ hc)
    simp [endsKey, hq, hb, hne]

/-- The first equals sign of the text ends the key, unless it begins it. -/
theorem findIdx?_text_iff (ha : a.IsCanonical) :
    a.text.findIdx? (fun c => c == '=') = some a.key.length ↔ a.text.head? ≠ some '=' := by
  constructor
  · intro h hhead
    obtain ⟨s, hs⟩ := List.head?_eq_some_iff.1 hhead
    have hzero : a.key.length = 0 := by simpa [hs, List.findIdx?_cons, eq_comm] using h
    exact ha.key.word.1 (List.length_eq_zero_iff.1 hzero)
  · intro h
    exact findIdx?_equals_append (mt ha.equals_mem_key_iff.1 h) a.value.text

end Assignment.IsCanonical

/-! ## The assignments of a line -/

/-- The assignments of a line are canonical. -/
theorem isCanonical_of_mem_items {s : List Char} {a : Assignment}
    (h : .assignment a ∈ assignmentItems s) : a.IsCanonical := by
  induction s using items_induction with
  | nil => simp at h
  | name w hw => simp [assignmentItems_name hw] at h
  | error s i rest hfirst hi =>
    rw [assignmentItems_of_isError hfirst hi, List.mem_singleton] at h
    rw [← h] at hi
    cases hi
  | item s i rest hfirst hi ih =>
    rw [assignmentItems_of_not_isError hfirst hi] at h
    obtain rfl | h := List.mem_cons.1 h
    · exact (Item.isCanonical_assignment_of_first hfirst).1
    · exact ih h

/-- The assignments that are kept are among the items. -/
theorem mem_items_of_mem_assignments {s : List Char} {a : Assignment}
    (h : a ∈ (Command.parse s).assignments) : .assignment a ∈ assignmentItems s := by
  have hkept : (Command.parse s).assignments = (assignmentItems s).filterMap Item.kept? :=
    Leading.assignments_readFrom s s
  rw [hkept, List.mem_filterMap] at h
  obtain ⟨i, hi, hikept⟩ := h
  rwa [← Item.eq_assignment_of_kept? hikept]

namespace Command

/-- The names of the environment are the keys of the assignments. -/
theorem mem_keys_environment {c : Command} {k : List Char} :
    k ∈ c.environment.keys ↔ ∃ a ∈ c.assignments, a.key = k := by
  rw [environment, Fields.mem_keys_ofList]
  simp

/-- **What the keys of a line are.**  A key is not empty and holds no quote and no blank, and the
first equals sign behind its first character parts it from the value.  It holds no equals sign, and
the first one of all is that between key and value, exactly if the assignment does not begin with
one; so it is for the names of the environment. -/
theorem keys_of_line (s : List Char) :
    (∀ a, a ∈ (parse s).assignments ∨ .assignment a ∈ assignmentItems s →
      a.key ≠ [] ∧ (∀ c ∈ a.key, isQuote c = false ∧ isBlank c = false) ∧
        equalsAt? a.text = some a.key.length ∧
        (a.HasCleanKey ↔ a.text.head? ≠ some '=') ∧
        (a.text.findIdx? (fun c => c == '=') = some a.key.length ↔ a.text.head? ≠ some '=')) ∧
      ((∀ k ∈ (parse s).environment.keys, '=' ∉ k) ↔
        ∀ a ∈ (parse s).assignments, a.text.head? ≠ some '=') := by
  have hcanonical : ∀ a, a ∈ (parse s).assignments ∨ .assignment a ∈ assignmentItems s →
      a.IsCanonical :=
    fun a h => isCanonical_of_mem_items (h.elim mem_items_of_mem_assignments id)
  constructor
  · intro a h
    have ha := hcanonical a h
    exact ⟨ha.key.word.1, ha.key.word.2, ha.equalsAt?_text, ha.hasCleanKey_iff,
      ha.findIdx?_text_iff⟩
  · simp only [mem_keys_environment, forall_exists_index, and_imp, forall_apply_eq_imp_iff₂]
    refine forall₂_congr fun a ha => ?_
    rw [(hcanonical a (.inl ha)).equals_mem_key_iff]

/-- A value with equals signs of its own: the key is what stands in front of the first. -/
theorem keys_of_line_equals_in_value :
    ⟨['A'], .word ['b', '=', 'c']⟩ ∈ (parse ['A', '=', 'b', '=', 'c']).assignments ∧
      Assignment.HasCleanKey ⟨['A'], .word ['b', '=', 'c']⟩ := by
  have hmem : ⟨['A'], .word ['b', '=', 'c']⟩ ∈ (parse ['A', '=', 'b', '=', 'c']).assignments := by
    decide +kernel
  obtain ⟨-, -, -, hclean, -⟩ := (keys_of_line _).1 _ (.inl hmem)
  exact ⟨hmem, hclean.2 (by decide)⟩

/-- An assignment that begins with an equals sign has a key that does. -/
theorem not_forall_hasCleanKey :
    ¬ ∀ s : List Char,
      (∀ a, a ∈ (parse s).assignments ∨ .assignment a ∈ assignmentItems s →
        a.HasCleanKey ∧ a.text.findIdx? (fun c => c == '=') = some a.key.length) ∧
      ∀ k ∈ (parse s).environment.keys, '=' ∉ k := by
  intro h
  have hmem : ⟨['=', 'a'], .word ['b']⟩ ∈ (parse ['=', 'a', '=', 'b']).assignments := by
    decide +kernel
  obtain ⟨hclean, -⟩ := (h _).1 _ (.inl hmem)
  exact absurd (hclean.key '=' (by simp)) (by decide)

end Command

end ShellLine
