import Mathlib.Data.List.Basic
import Mathlib.Tactic.SplitIfs
import ShellLine.Text.Grapheme

/-!
# Proofs/Text/Clusters — where the clusters of a text may be cut

`IsBreakAutomaton` says what is documented of the automaton that splits a text into clusters, row by
row.  Whatever such an automaton remembers, it breaks in front of a character of no special class,
unless a sign that prepends stands right in front (`step_other`).  What comes behind such a break is
split as if it were alone, so the clusters of a text are those of its two parts (`clustersBy_append`).
-/

namespace ShellLine

open GraphemeClass BreakState

/-! ## The automaton -/

/-- **The automaton as it is documented**: is there a break before a character of a class, and what
is remembered after it.  What a state does not treat by itself it treats like `plain`. -/
structure IsBreakAutomaton (step : BreakStep) : Prop where
  plain_other : step plain other = (true, plain)
  plain_return : step plain carriageReturn = (true, afterReturn)
  plain_control : ∀ k ∈ [lineFeed, control], step plain k = (true, afterControl)
  plain_extend : ∀ k ∈ [extend, spacingMark, joiner], step plain k = (false, plain)
  plain_pictograph : step plain pictograph = (true, afterPictograph)
  plain_regional : step plain regional = (true, afterRegional)
  plain_leading : step plain leading = (true, afterLeading)
  plain_vowel : ∀ k ∈ [openSyllable, vowel], step plain k = (true, afterVowel)
  plain_trailing : ∀ k ∈ [closedSyllable, trailing], step plain k = (true, afterTrailing)
  plain_prepend : step plain prepend = (true, afterPrepend)
  return_row : ∀ k, step afterReturn k =
    if k = lineFeed then (false, afterControl) else (true, (step plain k).2)
  control_row : ∀ k, step afterControl k = (true, (step plain k).2)
  prepend_row : ∀ k, step afterPrepend k =
    if k = control ∨ k = lineFeed then (true, plain)
    else if k = carriageReturn then (true, afterReturn)
    else (false, (step plain k).2)
  leading_row : ∀ k, step afterLeading k =
    if k = vowel ∨ k = openSyllable then (false, afterVowel)
    else if k = closedSyllable then (false, afterTrailing)
    else if k = leading then (false, afterLeading)
    else step plain k
  vowel_row : ∀ k, step afterVowel k =
    if k = vowel then (false, afterVowel)
    else if k = trailing then (false, afterTrailing)
    else step plain k
  trailing_row : ∀ k, step afterTrailing k =
    if k = trailing then (false, afterTrailing) else step plain k
  pictograph_row : ∀ k, step afterPictograph k =
    if k = extend then (false, afterPictograph)
    else if k = joiner then (false, afterJoiner)
    else step plain k
  joiner_row : ∀ k, step afterJoiner k =
    if k = pictograph then (false, afterPictograph) else step plain k
  regional_row : ∀ k, step afterRegional k =
    if k = regional then (false, plain) else step plain k

variable {classOf : Char → GraphemeClass} {step : BreakStep}

namespace IsBreakAutomaton

variable {state : BreakState} {k : GraphemeClass}

/-- **In front of a character of no special class there is a break**, and nothing is remembered of
what was before, unless that was a sign that prepends. -/
theorem step_other (hstep : IsBreakAutomaton step) (h : state ≠ afterPrepend) :
    step state other = (true, plain) := by
  have hplain := hstep.plain_other
  cases state with
  | plain => exact hplain
  | afterReturn => rw [hstep.return_row, if_neg nofun, hplain]
  | afterControl => rw [hstep.control_row, hplain]
  | afterPrepend => exact absurd rfl h
  | afterLeading =>
    rw [hstep.leading_row, if_neg (by decide), if_neg nofun, if_neg nofun, hplain]
  | afterVowel => rw [hstep.vowel_row, if_neg nofun, if_neg nofun, hplain]
  | afterTrailing => rw [hstep.trailing_row, if_neg nofun, hplain]
  | afterPictograph => rw [hstep.pictograph_row, if_neg nofun, if_neg nofun, hplain]
  | afterJoiner => rw [hstep.joiner_row, if_neg nofun, hplain]
  | afterRegional => rw [hstep.regional_row, if_neg nofun, hplain]

/-- Behind a character that nothing special precedes a sign that prepends is remembered only if it is
one. -/
theorem eq_prepend_of_plain (hstep : IsBreakAutomaton step)
    (h : (step plain k).2 = afterPrepend) : k = prepend := by
  have hcontrol := fun k hk => congrArg Prod.snd (hstep.plain_control k hk)
  have hextend := fun k hk => congrArg Prod.snd (hstep.plain_extend k hk)
  have hvowel := fun k hk => congrArg Prod.snd (hstep.plain_vowel k hk)
  have htrailing := fun k hk => congrArg Prod.snd (hstep.plain_trailing k hk)
  cases k with
  | prepend => rfl
  | other => cases h.symm.trans (congrArg Prod.snd hstep.plain_other)
  | carriageReturn => cases h.symm.trans (congrArg Prod.snd hstep.plain_return)
  | pictograph => cases h.symm.trans (congrArg Prod.snd hstep.plain_pictograph)
  | regional => cases h.symm.trans (congrArg Prod.snd hstep.plain_regional)
  | leading => cases h.symm.trans (congrArg Prod.snd hstep.plain_leading)
  | lineFeed | control => cases h.symm.trans (hcontrol _ (by decide))
  | extend | spacingMark | joiner => cases h.symm.trans (hextend _ (by decide))
  | openSyllable | vowel => cases h.symm.trans (hvowel _ (by decide))
  | closedSyllable | trailing => cases h.symm.trans (htrailing _ (by decide))

/-- Only a sign that prepends is remembered as one. -/
theorem eq_prepend_of_step (hstep : IsBreakAutomaton step)
    (h : (step state k).2 = afterPrepend) : k = prepend := by
  refine hstep.eq_prepend_of_plain ?_
  cases state with
  | plain => exact h
  | afterReturn =>
    rw [hstep.return_row] at h
    split_ifs at h
    exact h
  | afterControl =>
    rw [hstep.control_row] at h
    exact h
  | afterPrepend =>
    rw [hstep.prepend_row] at h
    split_ifs at h
    exact h
  | afterLeading =>
    rw [hstep.leading_row] at h
    split_ifs at h
    exact h
  | afterVowel =>
    rw [hstep.vowel_row] at h
    split_ifs at h
    exact h
  | afterTrailing =>
    rw [hstep.trailing_row] at h
    split_ifs at h
    exact h
  | afterPictograph =>
    rw [hstep.pictograph_row] at h
    split_ifs at h
    exact h
  | afterJoiner =>
    rw [hstep.joiner_row] at h
    split_ifs at h
    exact h
  | afterRegional =>
    rw [hstep.regional_row] at h
    split_ifs at h
    exact h

end IsBreakAutomaton

/-! ## What is remembered of a text -/

/-- The state after a text. -/
def stateAfter (classOf : Char → GraphemeClass) (step : BreakStep) (state : BreakState)
    (s : List Char) : BreakState :=
  s.foldl (fun state c => (step state (classOf c)).2) state

theorem stateAfter_cons (state : BreakState) (c : Char) (s : List Char) :
    stateAfter classOf step state (c :: s) =
      stateAfter classOf step (step state (classOf c)).2 s := rfl

theorem stateAfter_concat (state : BreakState) (s : List Char) (c : Char) :
    stateAfter classOf step state (s ++ [c]) =
      (step (stateAfter classOf step state s) (classOf c)).2 :=
  List.foldl_concat ..

theorem stateAfter_ne_afterPrepend (hstep : IsBreakAutomaton step) {s : List Char}
    (h : s.getLast?.map classOf ≠ some prepend) :
    stateAfter classOf step plain s ≠ afterPrepend := by
  rcases List.eq_nil_or_concat s with rfl | ⟨s, c, rfl⟩
  · exact nofun
  · rw [List.concat_eq_append, List.getLast?_concat] at h
    rw [List.concat_eq_append, stateAfter_concat]
    exact fun hafter => h (congrArg some (hstep.eq_prepend_of_step hafter))

/-! ## Clusters -/

variable {a b s : List Char}

theorem clustersBy_cons (c : Char) (s : List Char) :
    clustersBy classOf step (c :: s) =
      clustersFrom classOf step (step plain (classOf c)).2 [c] s := rfl

theorem clustersFrom_of_break {state state' : BreakState} {c : Char}
    (h : step state (classOf c) = (true, state')) (cluster s : List Char) :
    clustersFrom classOf step state cluster (c :: s) =
      cluster.reverse :: clustersFrom classOf step state' [c] s := by
  rw [clustersFrom, h]

theorem clustersFrom_of_no_break {state state' : BreakState} {c : Char}
    (h : step state (classOf c) = (false, state')) (cluster s : List Char) :
    clustersFrom classOf step state cluster (c :: s) =
      clustersFrom classOf step state' (c :: cluster) s := by
  rw [clustersFrom, h]

/-- **A break parts the clusters**: those behind it begin with what the automaton remembers then. -/
theorem clustersFrom_append {state state' : BreakState} {c : Char}
    (h : step (stateAfter classOf step state a) (classOf c) = (true, state'))
    (cluster s : List Char) :
    clustersFrom classOf step state cluster (a ++ c :: s) =
      clustersFrom classOf step state cluster a ++ clustersFrom classOf step state' [c] s := by
  induction a generalizing state cluster with
  | nil => exact clustersFrom_of_break h cluster s
  | cons d a ih =>
    rw [stateAfter_cons] at h
    rw [List.cons_append]
    rcases hstep : step state (classOf d) with ⟨_ | _, next⟩
    · rw [hstep] at h
      rw [clustersFrom_of_no_break hstep, clustersFrom_of_no_break hstep, ih h]
    · rw [hstep] at h
      rw [clustersFrom_of_break hstep, clustersFrom_of_break hstep, ih h, List.cons_append]

/-- **In front of a character of no special class a text may be cut**, if no sign stands there that
prepends: the clusters are those of the two parts. -/
theorem clustersBy_append (hstep : IsBreakAutomaton step)
    (ha : a.getLast?.map classOf ≠ some prepend) (hb : b.head?.map classOf = some other) :
    clustersBy classOf step (a ++ b) = clustersBy classOf step a ++ clustersBy classOf step b := by
  obtain ⟨c, hc, hclass⟩ := Option.map_eq_some_iff.1 hb
  obtain ⟨s, rfl⟩ : ∃ s, b = c :: s := List.head?_eq_some_iff.1 hc
  cases a with
  | nil => rfl
  | cons d a =>
    have hafter := stateAfter_ne_afterPrepend hstep ha
    rw [stateAfter_cons] at hafter
    have hbreak := hstep.step_other hafter
    rw [← hclass] at hbreak
    rw [List.cons_append, clustersBy_cons, clustersBy_cons d, clustersBy_cons c,
      clustersFrom_append hbreak, hclass, hstep.plain_other]

/-- Each character of a text without special classes is a cluster. -/
theorem clustersBy_of_other (hstep : IsBreakAutomaton step) (h : ∀ c ∈ s, classOf c = other) :
    clustersBy classOf step s = s.map fun c => [c] := by
  induction s with
  | nil => rfl
  | cons c s ih =>
    have hc := h c List.mem_cons_self
    have hs := fun d hd => h d (List.mem_cons_of_mem c hd)
    cases s with
    | nil => rfl
    | cons d s =>
      have hlast : [c].getLast?.map classOf ≠ some prepend := by
        rw [List.getLast?_singleton, Option.map_some, hc]
        exact nofun
      have hhead : (d :: s).head?.map classOf = some other := by
        rw [List.head?_cons, Option.map_some, hs d List.mem_cons_self]
      rw [← List.singleton_append, clustersBy_append hstep hlast hhead, ih hs, List.map_append]
      rfl

end ShellLine
