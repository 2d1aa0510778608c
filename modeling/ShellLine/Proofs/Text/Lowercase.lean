import Mathlib.Data.List.Basic
import ShellLine.Proofs.Text.WellFormed
import ShellLine.Text.Lowercase

/-!
# Proofs/Text/Lowercase — small letters stay as they are

The small form of a character is small itself: no run of the case table holds what another run leads
to (`CaseRun.misses_of_mem`).  So small letters are their own small form (`lowercase_lowercase`), a text
does not get shorter (`length_le_lowercase`), and no new plus sign comes up (`plus_mem_lowercase`).
-/

namespace ShellLine

/-! ## The runs of the case table -/

namespace CaseRun

/-- Is the small form of a code point given by the run? -/
def Holds (r : CaseRun) (n : Nat) : Prop := r.first ≤ n ∧ n ≤ r.last ∧ (n - r.first) % r.step = 0

/-- The first code point that the run leads to. -/
def low (r : CaseRun) : Nat := (r.first + r.shift).toNat

/-- The last code point that the run leads to. -/
def high (r : CaseRun) : Nat := (r.last + r.shift).toNat

/-- Does the run lead to characters behind the plus sign only? -/
def isSafe (r : CaseRun) : Bool :=
  0x2b < r.low && (r.high < 0xd800 || 0xdfff < r.low && r.high < 0x110000)

/-- Does the run lead out of another? Into one that goes by twos another of this kind, or a single
character, can lead in between. -/
def misses (r other : CaseRun) : Bool :=
  r.high.blt other.first || other.last.blt r.low ||
    (r.step == 2 || r.first == r.last) && other.step == 2 && (r.low + other.first) % 2 == 1

/-- The dotted capital I, whose small form is two characters and in no run. -/
def dottedI : CaseRun := ⟨0x130, 0x130, 1, 0⟩

theorem isSafe_of_mem : ∀ r ∈ lowerRuns, r.isSafe = true := by decide +kernel

/-- **No run leads to a code point that has a small form of its own.** -/
theorem misses_of_mem {r : CaseRun} (h : r ∈ lowerRuns) {other : CaseRun}
    (hother : other ∈ dottedI :: lowerRuns) : r.misses other = true := by
  have hall : (lowerRuns.all fun r => (dottedI :: lowerRuns).all r.misses) = true := by
    decide +kernel
  exact List.all_eq_true.1 (List.all_eq_true.1 hall r h) other hother

variable {r other : CaseRun} {n : Nat}

theorem isSafe_iff :
    r.isSafe = true ↔
      0x2b < r.low ∧ (r.high < 0xd800 ∨ 0xdfff < r.low ∧ r.high < 0x110000) := by
  simp [isSafe]

/-- What a run leads to lies between its ends, at the same distance from the first of them. -/
theorem toNat_add_shift (h : r.isSafe = true) (hn : r.Holds n) :
    (n + r.shift).toNat = r.low + (n - r.first) ∧ r.low + (n - r.first) ≤ r.high := by
  have hlow := (isSafe_iff.1 h).1
  obtain ⟨hfirst, hlast, -⟩ := hn
  rw [low] at *
  rw [high]
  omega

theorem not_holds_of_misses (hsafe : r.isSafe = true) (h : r.misses other = true)
    (hn : r.Holds n) : ¬ other.Holds (n + r.shift).toNat := by
  obtain ⟨hsmall, hhigh⟩ := toNat_add_shift hsafe hn
  obtain ⟨hfirst, hlast, hstep⟩ := hn
  rw [hsmall]
  rintro ⟨hfirst', hlast', hstep'⟩
  simp only [misses, Bool.or_eq_true, Bool.and_eq_true, beq_iff_eq, Nat.blt_eq] at h
  obtain (h | h) | ⟨⟨htwo | hone, htwo'⟩, hodd⟩ := h
  · omega
  · omega
  · rw [htwo] at hstep
    rw [htwo'] at hstep'
    omega
  · rw [htwo'] at hstep'
    omega

theorem toNat_charOfNat (hsafe : r.isSafe = true) (hn : r.Holds n) :
    (Char.ofNat (n + r.shift).toNat).toNat = (n + r.shift).toNat ∧ 0x2b < (n + r.shift).toNat := by
  have hrange := isSafe_iff.1 hsafe
  obtain ⟨hsmall, hhigh⟩ := toNat_add_shift hsafe hn
  refine ⟨Utf8.toNat_charOfNat ?_, by omega⟩
  rw [Nat.isValidChar, hsmall]
  omega

end CaseRun

/-! ## Small characters -/

/-- A character that stays as it is, wherever it stands. -/
def IsSmall (c : Char) : Prop := lowerChar c = [c] ∧ c ≠ '\u03a3'

theorem lowerChar_of_find? {c : Char} (h : c.toNat ≠ 0x130) {r? : Option CaseRun}
    (hr : lowerRuns.find? (fun r => r.first ≤ c.toNat && c.toNat ≤ r.last &&
      (c.toNat - r.first) % r.step == 0) = r?) :
    lowerChar c = (r?.map fun r => [Char.ofNat (c.toNat + r.shift : Int).toNat]).getD [c] := by
  rw [lowerChar, if_neg h]
  simp only [hr]
  cases r? <;> rfl

theorem isSmall_of_not_holds {c : Char}
    (h : ∀ r ∈ CaseRun.dottedI :: lowerRuns, ¬ r.Holds c.toNat) : IsSmall c := by
  have hdotted : c.toNat ≠ 0x130 := by
    intro hc
    refine h _ List.mem_cons_self ?_
    rw [hc]
    exact ⟨Nat.le_refl _, Nat.le_refl _, rfl⟩
  have hself : lowerChar c = [c] := by
    refine lowerChar_of_find? hdotted (List.find?_eq_none.2 fun r hr => ?_)
    simpa [CaseRun.Holds, and_assoc] using h r (List.mem_cons_of_mem _ hr)
  refine ⟨hself, ?_⟩
  rintro rfl
  exact absurd hself (by decide +kernel)

/-- The small form of a character is an `i` and a dot, what a run leads to, or the character itself
if it is small. -/
theorem lowerChar_cases (c : Char) :
    lowerChar c = ['i', '\u0307'] ∨
      (∃ r ∈ lowerRuns, r.Holds c.toNat ∧ lowerChar c = [Char.ofNat (c.toNat + r.shift).toNat]) ∨
      lowerChar c = [c] := by
  by_cases hdotted : c.toNat = 0x130
  · exact .inl (if_pos hdotted)
  · cases hr : lowerRuns.find? fun r => r.first ≤ c.toNat && c.toNat ≤ r.last &&
      (c.toNat - r.first) % r.step == 0 with
    | some r =>
      refine .inr (.inl ⟨r, List.mem_of_find?_eq_some hr, ?_, lowerChar_of_find? hdotted hr⟩)
      simpa [CaseRun.Holds, and_assoc] using List.find?_some hr
    | none => exact .inr (.inr (lowerChar_of_find? hdotted hr))

/-- **What a character becomes is small**, the capital sigma apart. -/
theorem isSmall_of_mem_lowerChar {c c' : Char} (hc : c ≠ '\u03a3') (h : c' ∈ lowerChar c) :
    IsSmall c' := by
  rcases lowerChar_cases c with hdotted | ⟨r, hr, hholds, hrun⟩ | hself
  · rw [hdotted, List.mem_cons, List.mem_singleton] at h
    rcases h with rfl | rfl <;> exact ⟨by decide +kernel, by decide⟩
  · rw [hrun, List.mem_singleton] at h
    have hsafe := CaseRun.isSafe_of_mem r hr
    refine isSmall_of_not_holds fun other hother => ?_
    rw [h, (CaseRun.toNat_charOfNat hsafe hholds).1]
    exact CaseRun.not_holds_of_misses hsafe (CaseRun.misses_of_mem hr hother) hholds
  · rw [hself, List.mem_singleton] at h
    exact h ▸ ⟨hself, hc⟩

theorem plus_mem_lowerChar {c : Char} (h : '+' ∈ lowerChar c) : c = '+' := by
  rcases lowerChar_cases c with hdotted | ⟨r, hr, hholds, hrun⟩ | hself
  · rw [hdotted] at h
    exact absurd h (by decide)
  · rw [hrun, List.mem_singleton] at h
    obtain ⟨hnat, hlt⟩ := CaseRun.toNat_charOfNat (CaseRun.isSafe_of_mem r hr) hholds
    rw [← h] at hnat
    change 0x2b = _ at hnat
    omega
  · rw [hself, List.mem_singleton] at h
    exact h.symm

/-! ## Small texts -/

/-- A character of small letters comes from a character of the text; only the capital sigma has two
small forms. -/
theorem mem_lowerFrom {c' : Char} :
    ∀ {behind s : List Char}, c' ∈ lowerFrom behind s →
      c' = '\u03c2' ∨ c' = '\u03c3' ∨ ∃ c ∈ s, c ≠ '\u03a3' ∧ c' ∈ lowerChar c
  | _, [], h => by simp [lowerFrom] at h
  | behind, c :: s, h => by
      rw [lowerFrom, List.mem_append] at h
      rcases h with h | h
      · split_ifs at h with hsigma hword
        · exact .inl (List.mem_singleton.1 h)
        · exact .inr (.inl (List.mem_singleton.1 h))
        · exact .inr (.inr ⟨c, List.mem_cons_self, hsigma, h⟩)
      · rcases mem_lowerFrom h with h | h | ⟨d, hd, h⟩
        · exact .inl h
        · exact .inr (.inl h)
        · exact .inr (.inr ⟨d, List.mem_cons_of_mem _ hd, h⟩)

theorem lowerFrom_of_isSmall :
    ∀ {behind s : List Char}, (∀ c ∈ s, IsSmall c) → lowerFrom behind s = s
  | _, [], _ => rfl
  | behind, c :: s, h => by
      obtain ⟨hc, hs⟩ := List.forall_mem_cons.1 h
      rw [lowerFrom, lowerFrom_of_isSmall hs, if_neg hc.2, hc.1]
      rfl

/-- **Small letters are their own small letters.** -/
theorem lowercase_lowercase (s : List Char) : lowercase (lowercase s) = lowercase s := by
  refine lowerFrom_of_isSmall fun c' hc' => ?_
  rcases mem_lowerFrom hc' with rfl | rfl | ⟨c, -, hc, h⟩
  · exact ⟨by decide +kernel, by decide⟩
  · exact ⟨by decide +kernel, by decide⟩
  · exact isSmall_of_mem_lowerChar hc h

/-- Small letters hold a plus sign only where the text does. -/
theorem plus_mem_lowercase {s : List Char} (h : '+' ∈ lowercase s) : '+' ∈ s := by
  rcases mem_lowerFrom h with h | h | ⟨c, hc, -, hplus⟩
  · exact absurd h (by decide)
  · exact absurd h (by decide)
  · exact plus_mem_lowerChar hplus ▸ hc

theorem length_le_lowerFrom :
    ∀ behind s : List Char, s.length ≤ (lowerFrom behind s).length
  | _, [] => Nat.le_refl _
  | behind, c :: s => by
      have ih := length_le_lowerFrom (c :: behind) s
      have hpos : 0 < (lowerChar c).length := by
        rcases lowerChar_cases c with h | ⟨_, -, -, h⟩ | h <;> simp [h]
      rw [lowerFrom, List.length_append, List.length_cons]
      split_ifs with hsigma hword
      · rw [List.length_singleton]
        omega
      · rw [List.length_singleton]
        omega
      · omega

/-- Small letters are no fewer than those of the text. -/
theorem length_le_lowercase (s : List Char) : s.length ≤ (lowercase s).length :=
  length_le_lowerFrom [] s

end ShellLine
