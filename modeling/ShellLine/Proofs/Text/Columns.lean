import Mathlib.Algebra.GroupWithZero.Nat
import Mathlib.Data.List.Basic
import Mathlib.Tactic.SplitIfs
import ShellLine.Proofs.Text.Unicode

/-!
# Proofs/Text/Columns — where the width of a text may be cut

The columns of a text are counted in one of three ways: by its length, by its clusters, or by what a
cache remembers.  A cache only remembers what was counted (`WidthCache.IsSound`), and a plain text
has one cluster for each character (`columns_eq_sum`), so all three agree; and as the clusters of a
text may be cut in front of a character of no special class, so may its columns (`columns_append`).

What is used of the libraries are the hypotheses `hstep`, `hclusters`, `hother` and `hone`: the
clusters are those of the automaton as it is documented, and a plain character has no special class
and takes one column.
-/

namespace ShellLine

section

variable [Typography] {cache : WidthCache} {a b s : List Char}

/-! ## The cache -/

namespace WidthCache

/-- What a cache remembers has been counted, and it remembers no more than it may. -/
structure IsSound (cache : WidthCache) : Prop where
  eq_countColumns : ∀ s n, Fields.get? s cache = some n → n = countColumns s
  length_le : cache.length ≤ limit

theorem isSound_nil : IsSound [] where
  eq_countColumns := nofun
  length_le := Nat.zero_le _

theorem IsSound.remember (h : cache.IsSound) (s : List Char) :
    (cache.remember s (countColumns s)).IsSound := by
  have hput : ∀ cache : WidthCache, cache.IsSound → cache.length < limit →
      IsSound (Fields.put s (countColumns s) cache) := by
    intro cache h hlength
    refine ⟨fun s' n hn => ?_, Nat.le_trans (Fields.length_put_le ..) hlength⟩
    rw [Fields.get?_put] at hn
    split_ifs at hn with hs
    · rw [← hs]
      exact (Option.some.inj hn).symm
    · exact h.eq_countColumns s' n hn
  rw [WidthCache.remember]
  split_ifs with hfull
  · exact hput [] isSound_nil (by decide)
  · exact hput cache h (Nat.lt_of_not_le hfull)

end WidthCache

/-- **The cache never shows**: what is counted with it are the columns of the text, and it stays
sound. -/
theorem cachedColumns_of_isSound (h : cache.IsSound) (s : List Char) :
    (cachedColumns cache s).1 = columns s ∧ (cachedColumns cache s).2.IsSound := by
  rw [cachedColumns]
  split_ifs with hempty hplain
  · rw [hempty]
    exact ⟨rfl, h⟩
  · exact ⟨(if_pos hplain).symm, h⟩
  · have hcolumns : columns s = countColumns s := if_neg hplain
    rw [hcolumns]
    split
    next n hn => exact ⟨h.eq_countColumns s n hn, h⟩
    next => exact ⟨rfl, h.remember s⟩

theorem isSound_cacheAfter (texts : List (List Char)) : (cacheAfter texts).IsSound := by
  have hfold : ∀ cache : WidthCache, cache.IsSound →
      WidthCache.IsSound (texts.foldl (fun cache s => (cachedColumns cache s).2) cache) := by
    induction texts with
    | nil => exact fun cache h => h
    | cons s texts ih => exact fun cache h => ih _ (cachedColumns_of_isSound h s).2
  exact hfold [] WidthCache.isSound_nil

/-! ## Bounds -/

theorem graphemeColumns_le (hle : ∀ c, Typography.charColumns c ≤ 2) (cluster : List Char) :
    graphemeColumns cluster ≤ 2 * cluster.length := by
  have hchar : ∀ c, (Typography.charColumns c).toNat ≤ 2 := fun c => Int.toNat_le.2 (hle c)
  match cluster with
  | [] => exact Nat.le_refl 0
  | [c] =>
    rw [graphemeColumns]
    split_ifs
    · exact Nat.zero_le 2
    · exact hchar c
  | c :: d :: s =>
    have hlength : 2 ≤ 2 * (c :: d :: s).length := by
      rw [List.length_cons, List.length_cons]
      omega
    refine Nat.le_trans ?_ hlength
    rw [graphemeColumns]
    · split_ifs
      · exact Nat.le_refl 2
      · exact Nat.zero_le 2
      · exact hchar c
    · exact fun h => List.cons_ne_nil d s h

theorem clusterColumns_le (hle : ∀ c, Typography.charColumns c ≤ 2) (cluster : List Char) :
    clusterColumns cluster ≤ 2 * cluster.length := by
  rw [clusterColumns]
  split_ifs with htab
  · rw [htab]
    decide
  · exact graphemeColumns_le hle cluster

/-- A text takes no more than two columns for each character if its characters do not. -/
theorem columns_le (hflatten : ∀ s, (Typography.clusters s).flatten = s)
    (hle : ∀ c, Typography.charColumns c ≤ 2) (s : List Char) : columns s ≤ 2 * s.length := by
  have hsum : ∀ cs : List (List Char),
      (cs.map clusterColumns).foldr (· + ·) 0 ≤ 2 * cs.flatten.length := by
    intro cs
    induction cs with
    | nil => exact Nat.le_refl 0
    | cons cluster cs ih =>
      have hcluster := clusterColumns_le hle cluster
      rw [List.map_cons, List.foldr_cons, List.flatten_cons, List.length_append]
      omega
  rw [columns]
  split_ifs
  · omega
  · have h := hsum (Typography.clusters s)
    rwa [hflatten] at h

/-! ## Cuts -/

variable {classOf : Char → GraphemeClass} {step : BreakStep}

/-- A plain character takes one column. -/
theorem clusterColumns_of_isPlain (hone : ∀ c, isPlain c = true → Typography.charColumns c = 1)
    {c : Char} (h : isPlain c = true) : clusterColumns [c] = 1 := by
  have htab : [c] ≠ ['\t'] := by
    intro hc
    rw [List.singleton_inj.1 hc] at h
    exact absurd h (by decide)
  rw [clusterColumns, if_neg htab, graphemeColumns, if_neg (not_isControl_of_isPlain h), hone c h]
  rfl

/-- **The columns of any text are those of its clusters**, also where they are counted by the length
of the text. -/
theorem columns_eq_sum (hstep : IsBreakAutomaton step)
    (hclusters : ∀ s, Typography.clusters s = clustersBy classOf step s)
    (hother : ∀ c, isPlain c = true → classOf c = .other)
    (hone : ∀ c, isPlain c = true → Typography.charColumns c = 1) (s : List Char) :
    columns s = ((Typography.clusters s).map clusterColumns).sum := by
  rw [columns]
  split_ifs with h
  · have hplain := List.all_eq_true.1 h
    have hwidths : (s.map fun c => [c]).map clusterColumns = s.map fun _ => 1 := by
      rw [List.map_map]
      exact List.map_congr_left fun c hc => clusterColumns_of_isPlain hone (hplain c hc)
    rw [hclusters, clustersBy_of_other hstep fun c hc => hother c (hplain c hc), hwidths]
    simp
  · rfl

/-- **Columns add up where a text may be cut.** -/
theorem columns_append (hstep : IsBreakAutomaton step)
    (hclusters : ∀ s, Typography.clusters s = clustersBy classOf step s)
    (hother : ∀ c, isPlain c = true → classOf c = .other)
    (hone : ∀ c, isPlain c = true → Typography.charColumns c = 1)
    (ha : a.getLast?.map classOf ≠ some .prepend) (hb : b.head?.map classOf = some .other) :
    columns (a ++ b) = columns a + columns b := by
  have hsum := columns_eq_sum hstep hclusters hother hone
  rw [hsum, hsum, hsum, hclusters, hclusters, hclusters, clustersBy_append hstep ha hb,
    List.map_append, List.sum_append]

/-- **Columns add up where a text may be cut**: in front of a character of no special class, unless a
sign that prepends stands right before it.  How the columns are counted makes no difference: those of
any text, also of a plain one, are those of its clusters, and a cache that remembers what was counted
earlier gives them again. -/
theorem columns_append_and_eq_sum (hstep : IsBreakAutomaton step)
    (hclusters : ∀ s, Typography.clusters s = clustersBy classOf step s)
    (hother : ∀ c, isPlain c = true → classOf c = .other)
    (hone : ∀ c, isPlain c = true → Typography.charColumns c = 1) :
    (∀ a b : List Char, a.getLast?.map classOf ≠ some .prepend →
      b.head?.map classOf = some .other → columns (a ++ b) = columns a + columns b) ∧
    (∀ s, columns s = ((Typography.clusters s).map clusterColumns).sum) ∧
    ∀ earlier s, (cachedColumns (cacheAfter earlier) s).1 = columns s :=
  ⟨fun _ _ => columns_append hstep hclusters hother hone,
    columns_eq_sum hstep hclusters hother hone,
    fun earlier s => (cachedColumns_of_isSound (isSound_cacheAfter earlier) s).1⟩

end

/-- A flag and half of another, each half a character, in front of a plain text. -/
theorem columns_append_and_eq_sum_flags :
    let a := ['\u65e5', Char.ofNat 0x1f1e9, Char.ofNat 0x1f1ea, Char.ofNat 0x1f1eb]
    let b := ['l', 's']
    a.getLast?.map Unicode.graphemeClass ≠ some .prepend ∧
      b.head?.map Unicode.graphemeClass = some .other ∧
      columns (a ++ b) = columns a + columns b ∧ columns a = 6 ∧ columns b = 2 ∧
      (cachedColumns (cacheAfter [b, a]) a).1 = 6 := by
  intro a b
  obtain ⟨hadd, -, hcache⟩ := columns_append_and_eq_sum Unicode.isBreakAutomaton_breakStep
    (fun _ => rfl) (fun _ => Unicode.graphemeClass_of_isPlain)
    (fun _ => Unicode.charColumns_of_isPlain)
  have ha : a.getLast?.map Unicode.graphemeClass ≠ some .prepend := by decide +kernel
  have hb : b.head?.map Unicode.graphemeClass = some .other := by decide +kernel
  have hcolumns : columns a = 6 := by decide +kernel
  exact ⟨ha, hb, hadd a b ha hb, hcolumns, by decide +kernel, (hcache [b, a] a).trans hcolumns⟩

/-- A sign that prepends takes the character behind it into its cluster, so the guard is needed. -/
example : columns ['\u0600', 'a'] ≠ columns ['\u0600'] + columns ['a'] := by decide +kernel

end ShellLine
