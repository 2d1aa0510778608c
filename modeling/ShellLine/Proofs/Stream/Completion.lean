import Mathlib.Data.List.TakeWhile
import ShellLine.Proofs.Stream.Agreement
import ShellLine.Proofs.Stream.Partition

/-!
# Proofs/Stream/Completion — which held bytes can still become a key

Bytes that are held back wait for more.  For all but one kind of them some more bytes make a key:
each introducer has an end that can be appended.  The exception is a control sequence that begins
with `<` and does not go on like the report of a mouse.  Only a report ends such a sequence, so
nothing that follows completes it, and all that follows is held back with it
(`exists_completion_iff`).

The engine is `beginsReport_of_isReport` and its converse: the beginnings of reports, as a grammar of
their own, are the bytes that more bytes make a report.
-/

namespace ShellLine

variable {b : UInt8} {s t : List UInt8} {n : Nat}

/-! ## Reports of a mouse -/

/-- The digits of a number. -/
def IsNumber (digits : List UInt8) : Prop := digits ≠ [] ∧ ∀ b ∈ digits, isDigitByte b = true

/-- A report from one of its numbers on: `n` numbers with a semicolon behind each, a last one, and
`M` or `m`. -/
inductive IsReport : Nat → List UInt8 → Prop
  | last {number : List UInt8} {final : UInt8} (hnumber : IsNumber number)
      (hfinal : final = 0x4d ∨ final = 0x6d) : IsReport 0 (number ++ [final])
  | next {n : Nat} {number rest : List UInt8} (hnumber : IsNumber number)
      (hrest : IsReport n rest) : IsReport (n + 1) (number ++ 0x3b :: rest)

/-- The beginning of a report from one of its numbers on: at most `n` numbers with a semicolon behind
each, and digits. -/
inductive BeginsReport : Nat → List UInt8 → Prop
  | digits {n : Nat} {digits : List UInt8} (hdigits : ∀ b ∈ digits, isDigitByte b = true) :
      BeginsReport n digits
  | next {n : Nat} {number rest : List UInt8} (hnumber : IsNumber number)
      (hrest : BeginsReport n rest) : BeginsReport (n + 1) (number ++ 0x3b :: rest)

theorem afterNumber?_append (hnumber : IsNumber s) (hb : isDigitByte b = false)
    (t : List UInt8) : afterNumber? (s ++ b :: t) = some (b :: t) := by
  have htake : (s ++ b :: t).takeWhile isDigitByte = s := by
    rw [List.takeWhile_append_of_pos hnumber.2, List.takeWhile_cons_of_neg (by simp [hb]),
      List.append_nil]
  have hdrop : (s ++ b :: t).dropWhile isDigitByte = b :: t := by
    rw [List.dropWhile_append_of_pos hnumber.2, List.dropWhile_cons_of_neg (by simp [hb])]
  rw [afterNumber?, htake, hdrop, if_neg hnumber.1]

theorem exists_of_afterNumber? (h : afterNumber? s = some t) :
    ∃ number, IsNumber number ∧ s = number ++ t := by
  rw [afterNumber?] at h
  split at h
  · simp at h
  next hne =>
    refine ⟨s.takeWhile isDigitByte, ⟨hne, fun b hb => List.mem_takeWhile_imp hb⟩, ?_⟩
    rw [← Option.some.inj h, List.takeWhile_append_dropWhile]

theorem isMouseReport_iff : isMouseReport (0x3c :: s) = true ↔ IsReport 2 s := by
  constructor
  · intro h
    rw [isMouseReport] at h
    split at h
    next s₁ h₁ =>
      split at h
      next s₂ h₂ =>
        split at h
        next final h₃ =>
          obtain ⟨x, hx, rfl⟩ := exists_of_afterNumber? h₁
          obtain ⟨y, hy, rfl⟩ := exists_of_afterNumber? h₂
          obtain ⟨z, hz, rfl⟩ := exists_of_afterNumber? h₃
          exact .next hx (.next hy (.last hz (by simpa using h)))
        next => cases h
      next => cases h
    next => cases h
  · intro h
    cases h with
    | next hx h =>
      cases h with
      | next hy h =>
        cases h with
        | @last z final hz hfinal =>
          have hdigit : isDigitByte final = false := by
            rcases hfinal with rfl | rfl <;> rfl
          have h₃ := afterNumber?_append hz hdigit []
          simp only [isMouseReport, afterNumber?_append hx (b := 0x3b) rfl,
            afterNumber?_append hy (b := 0x3b) rfl, h₃]
          simpa using hfinal

theorem IsReport.exists_concat (h : IsReport n s) :
    ∃ (init : List UInt8) (final : UInt8), s = init ++ [final] ∧ isFinalByte final = true := by
  induction h with
  | last hnumber hfinal =>
    refine ⟨_, _, rfl, ?_⟩
    rcases hfinal with rfl | rfl <;> rfl
  | @next n number rest _ _ ih =>
    obtain ⟨init, final, rfl, hfinal⟩ := ih
    exact ⟨number ++ 0x3b :: init, final, by simp, hfinal⟩

/-- **A control sequence that begins like a report** is whole when it is one. -/
theorem isControlSequence_report_iff : isControlSequence (0x3c :: s) = true ↔ IsReport 2 s := by
  rw [← isMouseReport_iff]
  constructor
  · intro h
    rw [isControlSequence] at h
    split at h
    · simpa using (Bool.and_eq_true_iff.1 h).2
    · cases h
  · intro h
    obtain ⟨init, final, rfl, hfinal⟩ := (isMouseReport_iff.1 h).exists_concat
    have hlast : (0x3c :: (init ++ [final])).getLast? = some final := by
      rw [← List.cons_append, List.getLast?_concat]
    have hrange : (decide (0x40 ≤ final) && decide (final ≤ 0x7e)) = true := hfinal
    simp only [isControlSequence, hlast, hrange, h, Bool.or_true, Bool.and_self]

/-! ## Beginnings of reports -/

/-- What makes a report of a beginning of one in which `n` semicolons are to come. -/
def reportEnd : Nat → List UInt8
  | 0 => [0x30, 0x4d]
  | n + 1 => 0x30 :: 0x3b :: reportEnd n

theorem isNumber_concat_zero (h : ∀ b ∈ s, isDigitByte b = true) : IsNumber (s ++ [0x30]) := by
  refine ⟨by simp, fun b hb => ?_⟩
  rcases List.mem_append.1 hb with hb | hb
  · exact h b hb
  · rw [List.mem_singleton.1 hb]
    rfl

theorem isReport_append_reportEnd (n : Nat) :
    ∀ {s : List UInt8}, (∀ b ∈ s, isDigitByte b = true) → IsReport n (s ++ reportEnd n) := by
  induction n with
  | zero =>
    intro s h
    rw [reportEnd, ← List.singleton_append, ← List.append_assoc]
    exact .last (isNumber_concat_zero h) (.inl rfl)
  | succ n ih =>
    intro s h
    rw [reportEnd, ← List.singleton_append, ← List.append_assoc]
    exact .next (isNumber_concat_zero h) (ih (s := []) (by simp))

/-- **The beginning of a report can become one.** -/
theorem BeginsReport.exists_isReport (h : BeginsReport n s) : ∃ t, IsReport n (s ++ t) := by
  induction h with
  | digits hdigits => exact ⟨_, isReport_append_reportEnd _ hdigits⟩
  | next hnumber _ ih =>
    obtain ⟨t, ht⟩ := ih
    refine ⟨t, ?_⟩
    rw [List.append_assoc, List.cons_append]
    exact .next hnumber ht

/-- **What can become a report begins one.** -/
theorem beginsReport_of_isReport (ht : t ≠ []) {s : List UInt8} (h : IsReport n (s ++ t)) :
    BeginsReport n s := by
  generalize hx : s ++ t = x at h
  -- A report is cut either within its first number, or behind the semicolon that follows it.
  induction h generalizing s with
  | @last number final hnumber =>
    obtain ⟨u, rfl, hu⟩ | ⟨u, rfl, -⟩ := List.append_eq_append_iff.1 hx.symm
    · obtain rfl : u = [] := by
        have hlen := congrArg List.length hu
        have hpos := List.length_pos_iff.2 ht
        rw [List.length_append, List.length_singleton] at hlen
        exact List.length_eq_zero_iff.1 (by omega)
      rw [List.append_nil]
      exact .digits hnumber.2
    · exact .digits fun b hb => hnumber.2 b (List.mem_append_left u hb)
  | @next n number rest hnumber _ ih =>
    obtain ⟨u, rfl, hu⟩ | ⟨u, rfl, -⟩ := List.append_eq_append_iff.1 hx.symm
    · cases u with
      | nil =>
        rw [List.append_nil]
        exact .digits hnumber.2
      | cons c u =>
        rw [List.cons_append, List.cons.injEq] at hu
        rw [← hu.1]
        exact .next hnumber (ih hu.2.symm)
    · exact .digits fun b hb => hnumber.2 b (List.mem_append_left u hb)

/-! ## What can be completed -/

theorem isUnfinished_escape_cons_iff :
    IsUnfinished (escByte :: b :: s) ↔
      ∀ m ≤ s.length, isWholeAfterEscape b (s.take m) = false := by
  simp only [← splitKeys_eq_self_iff_isUnfinished, splitKeys_eq_self_iff, ← Nat.lt_succ_iff]
  exact forall_reachesEnd_escape_iff

theorem isTerminated_append (bell : Bool) (data : List UInt8) :
    isTerminated bell (data ++ [escByte, 0x5c]) = true := by
  have hsuffix : [0x1b, 0x5c].isSuffixOf (data ++ [escByte, 0x5c]) = true :=
    List.isSuffixOf_iff_suffix.2 ⟨data, rfl⟩
  rw [isTerminated, hsuffix, Bool.true_or]

/-- A control sequence has an end, but for one that begins like a report and is none. -/
theorem exists_isWhole_control (h : ∀ p, s = 0x3c :: p → BeginsReport 2 p) :
    ∃ more, isWholeAfterEscape 0x5b (s ++ more) = true := by
  cases s with
  | nil => exact ⟨[0x41], rfl⟩
  | cons c s =>
    by_cases hbutton : c = 0x4d
    · subst hbutton
      exact ⟨List.replicate 3 0, by simp [isWholeAfterEscape]⟩
    by_cases hreport : c = 0x3c
    · subst hreport
      obtain ⟨t, ht⟩ := (h s rfl).exists_isReport
      refine ⟨t, ?_⟩
      rw [isWholeAfterEscape_control (by simp), List.cons_append]
      exact isControlSequence_report_iff.2 ht
    · refine ⟨[0x41], ?_⟩
      rw [isWholeAfterEscape_control (by simpa using hbutton)]
      exact isControlSequence_concat rfl (by simpa using hreport)

/-- Behind an escape every byte has an end that can follow, but for a control sequence that begins
like a report and is none. -/
theorem exists_isWholeAfterEscape (b : UInt8) (s : List UInt8)
    (h : b = 0x5b → ∀ p, s = 0x3c :: p → BeginsReport 2 p) :
    ∃ more, isWholeAfterEscape b (s ++ more) = true := by
  by_cases hb : b ∈ sequenceIntroducers
  · simp only [sequenceIntroducers, List.mem_cons, List.not_mem_nil, or_false] at hb
    obtain rfl | rfl | rfl | rfl | rfl := hb
    · exact exists_isWhole_control (h rfl)
    · exact ⟨[0x30], by simp [isWholeAfterEscape]⟩
    · exact ⟨[escByte, 0x5c], isTerminated_append true (0x5d :: s)⟩
    · exact ⟨[escByte, 0x5c], isTerminated_append false (0x50 :: s)⟩
    · exact ⟨[escByte, 0x5c], isTerminated_append false (0x5f :: s)⟩
  · refine ⟨List.replicate (Utf8.length b) 0, ?_⟩
    rw [isWholeAfterEscape_of_not_mem hb, List.length_append, List.length_replicate]
    exact decide_eq_true (by omega)

/-- A control sequence that begins with `<`, as the reports of a mouse do, and that does not go on as
the beginning of one. -/
def IsBrokenReport (data : List UInt8) : Prop :=
  ∃ p, data = escByte :: 0x5b :: 0x3c :: p ∧ ¬ BeginsReport 2 p

/-- **A broken report stays unfinished**, whatever follows it. -/
theorem IsBrokenReport.isUnfinished_append {x : List UInt8} (hbroken : IsBrokenReport x)
    (hx : IsUnfinished x) (more : List UInt8) : IsUnfinished (x ++ more) := by
  obtain ⟨p, rfl, hp⟩ := hbroken
  simp only [List.cons_append]
  rw [isUnfinished_escape_cons_iff] at hx ⊢
  have hcontrol (q : List UInt8) :
      isWholeAfterEscape 0x5b (0x3c :: q) = isControlSequence (0x3c :: q) :=
    isWholeAfterEscape_control (by simp)
  -- No beginning that goes beyond `p` is a report, or `p` would begin one; the others are those of
  -- the bytes that were held back already.
  intro m hm
  cases m with
  | zero => rfl
  | succ k =>
    rw [List.take_succ_cons, hcontrol, Bool.eq_false_iff, Ne, isControlSequence_report_iff,
      List.take_append]
    intro hreport
    by_cases hk : k ≤ p.length
    · have hheld := hx (k + 1) (Nat.succ_le_succ hk)
      rw [List.take_succ_cons, hcontrol, Bool.eq_false_iff, Ne, isControlSequence_report_iff]
        at hheld
      rw [Nat.sub_eq_zero_of_le hk, List.take_zero, List.append_nil] at hreport
      exact hheld hreport
    · rw [List.take_of_length_le (by omega)] at hreport
      refine hp (beginsReport_of_isReport ?_ hreport)
      rw [List.length_cons, List.length_append] at hm
      rw [← List.length_pos_iff, List.length_take]
      omega

theorem not_isUnfinished_of_isWholeAfterEscape (h : isWholeAfterEscape b s = true) :
    ¬ IsUnfinished (escByte :: b :: s) := by
  intro hwaiting
  have hs := isUnfinished_escape_cons_iff.1 hwaiting s.length (Nat.le_refl _)
  rw [List.take_length, h] at hs
  cases hs

/-- **All bytes can be completed** but a broken report. -/
theorem exists_not_isUnfinished_append {x : List UInt8} (hx : ¬ IsBrokenReport x) :
    ∃ more, ¬ IsUnfinished (x ++ more) := by
  cases x with
  | nil => exact ⟨[0x61], (isUnfinished_cons_iff (by decide)).not.2 (by decide)⟩
  | cons e s =>
    by_cases he : e = escByte
    · subst he
      cases s with
      | nil => exact ⟨[0x61], not_isUnfinished_of_isWholeAfterEscape rfl⟩
      | cons b s =>
        obtain ⟨more, hmore⟩ := exists_isWholeAfterEscape b s fun hb p hs => by
          by_contra hp
          exact hx ⟨p, by rw [hb, hs], hp⟩
        exact ⟨more, not_isUnfinished_of_isWholeAfterEscape hmore⟩
    · refine ⟨List.replicate (Utf8.length e) 0, (isUnfinished_cons_iff he).not.2 ?_⟩
      change ¬ (s ++ List.replicate (Utf8.length e) 0).length + 1 < Utf8.length e
      rw [List.length_append, List.length_replicate]
      omega

theorem splitKeys_fst_eq_nil_iff {x : List UInt8} : (splitKeys x).1 = [] ↔ IsUnfinished x := by
  rw [← splitKeys_eq_self_iff_isUnfinished]
  constructor
  · intro h
    have hlossless := flatten_splitKeys x
    rw [h, List.flatten_nil, List.nil_append] at hlossless
    exact Prod.ext h hlossless
  · intro h
    rw [h]

/-- **Some more bytes make a key of what is held back**, unless that is a broken report: then no
bytes do, and all that follows is held back with it. -/
theorem exists_completion_iff (data : List UInt8) :
    (∃ more, (splitKeys ((splitKeys data).2 ++ more)).1 ≠ []) ↔
      ¬ IsBrokenReport (splitKeys data).2 := by
  have hheld : IsUnfinished (splitKeys data).2 :=
    splitKeys_eq_self_iff_isUnfinished.1 (splitKeys_snd data)
  simp only [ne_eq, splitKeys_fst_eq_nil_iff]
  constructor
  · rintro ⟨more, hmore⟩ hbroken
    exact hmore (hbroken.isUnfinished_append hheld more)
  · exact exists_not_isUnfinished_append

/-- The first byte of a report, and of the beginning of one, is a digit. -/
theorem BeginsReport.isDigitByte_head (h : BeginsReport n (b :: s)) : isDigitByte b = true := by
  generalize hx : b :: s = x at h
  cases h with
  | digits hdigits => exact hdigits b (hx ▸ List.mem_cons_self)
  | next hnumber =>
    obtain ⟨d, number, rfl⟩ := List.exists_cons_of_ne_nil hnumber.1
    rw [List.cons_append, List.cons.injEq] at hx
    exact hnumber.2 b (hx.1 ▸ List.mem_cons_self)

/-- Not all that is held back can become a key: an escape, `[`, `<` and `x` cannot. -/
theorem not_forall_exists_completion :
    ¬ ∀ data : List UInt8, (splitKeys data).2 ≠ [] →
      ∃ more, (splitKeys ((splitKeys data).2 ++ more)).1 ≠ [] := by
  intro h
  have hbroken : IsBrokenReport [escByte, 0x5b, 0x3c, 0x78] :=
    ⟨[0x78], rfl, fun hp => absurd hp.isDigitByte_head (by decide)⟩
  have hheld : splitKeys [escByte, 0x5b, 0x3c, 0x78] = ([], [escByte, 0x5b, 0x3c, 0x78]) :=
    splitKeys_of_none (by decide)
  obtain ⟨more, hmore⟩ := h [escByte, 0x5b, 0x3c, 0x78] (by rw [hheld]; decide)
  rw [hheld, ne_eq, splitKeys_fst_eq_nil_iff] at hmore
  exact hmore (hbroken.isUnfinished_append (splitKeys_eq_self_iff_isUnfinished.1 hheld) more)

end ShellLine
