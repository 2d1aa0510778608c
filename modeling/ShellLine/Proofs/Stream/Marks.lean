import Mathlib.Data.List.Infix
import ShellLine.Stream.Input

/-!
# Proofs/Stream/Marks — where a mark stands in a stream

`splitAtMark?` looks for the first place where a mark stands.  The marks of a paste begin with an
escape and hold no other, so a mark never overlaps itself: behind bytes without the mark, the first
mark is the one that was put there (`splitAtMark?_append_mark`).
-/

namespace ShellLine

variable {mark s before after : List UInt8}

theorem splitAtMark?_eq_none_iff (hm : mark ≠ []) :
    ∀ {s : List UInt8}, splitAtMark? mark s = none ↔ ¬ mark <:+: s
  | [] => by simp [splitAtMark?, hm]
  | b :: s => by
      rw [splitAtMark?, List.infix_cons_iff, not_or, ← splitAtMark?_eq_none_iff hm]
      split
      · rename_i h
        simp [List.isPrefixOf_iff_prefix.1 h]
      · rename_i h
        rw [List.isPrefixOf_iff_prefix] at h
        simp [h]

/-- The mark and what stands around it are the whole stream. -/
theorem eq_of_splitAtMark? :
    ∀ {s before after : List UInt8}, splitAtMark? mark s = some (before, after) →
      before ++ mark ++ after = s
  | [], _, _, h => by simp [splitAtMark?] at h
  | b :: s, before, after, h => by
      rw [splitAtMark?] at h
      split at h
      · rename_i hp
        simp only [Option.some.injEq, Prod.mk.injEq] at h
        obtain ⟨rfl, rfl⟩ := h
        exact List.prefix_iff_eq_append.1 (List.isPrefixOf_iff_prefix.1 hp)
      · simp only [Option.map_eq_some_iff, Prod.mk.injEq] at h
        obtain ⟨⟨before, after⟩, hs, rfl, rfl⟩ := h
        simp only [List.cons_append, eq_of_splitAtMark? hs]

/-- A mark that has been found stays the first one when more bytes come. -/
theorem splitAtMark?_append (t : List UInt8) :
    ∀ {s before after : List UInt8}, splitAtMark? mark s = some (before, after) →
      splitAtMark? mark (s ++ t) = some (before, after ++ t)
  | [], _, _, h => by simp [splitAtMark?] at h
  | b :: s, before, after, h => by
      rw [splitAtMark?] at h
      rw [List.cons_append, splitAtMark?]
      split at h
      · rename_i hp
        simp only [Option.some.injEq, Prod.mk.injEq] at h
        obtain ⟨rfl, rfl⟩ := h
        have hp := List.isPrefixOf_iff_prefix.1 hp
        have hp' : mark.isPrefixOf (b :: (s ++ t)) = true :=
          List.isPrefixOf_iff_prefix.2 (hp.trans (List.prefix_append (b :: s) t))
        rw [if_pos hp', ← List.cons_append, List.drop_append_of_le_length hp.length_le]
      · rename_i hp
        simp only [Option.map_eq_some_iff, Prod.mk.injEq] at h
        obtain ⟨⟨before, after⟩, hs, rfl, rfl⟩ := h
        have hlen : mark.length ≤ (b :: s).length := by
          have := congrArg List.length (eq_of_splitAtMark? hs)
          simp only [List.length_append] at this
          simp only [List.length_cons]
          omega
        have hp' : ¬ mark.isPrefixOf (b :: (s ++ t)) = true := fun h' => hp <|
          List.isPrefixOf_iff_prefix.2 <| List.prefix_of_prefix_length_le
            (List.isPrefixOf_iff_prefix.1 h') (List.prefix_append (b :: s) t) hlen
        rw [if_neg hp', splitAtMark?_append t hs]
        rfl

/-- In front of the first mark there is none. -/
theorem not_infix_of_splitAtMark? (hm : mark ≠ [])
    (h : splitAtMark? mark s = some (before, after)) : ¬ mark <:+: before := by
  intro hinfix
  cases hfind : splitAtMark? mark before with
  | none => exact (splitAtMark?_eq_none_iff hm).1 hfind hinfix
  | some p =>
    have hfirst := splitAtMark?_append (mark ++ after) hfind
    rw [← List.append_assoc, eq_of_splitAtMark? h, h, Option.some.injEq, Prod.mk.injEq] at hfirst
    have hlen := congrArg List.length (eq_of_splitAtMark? hfind)
    simp only [List.length_append, ← hfirst.1] at hlen
    exact hm (List.length_eq_zero_iff.1 (by omega))

/-- **Behind bytes without the mark the first mark is the one put there.** -/
theorem splitAtMark?_append_mark {e : UInt8} {m : List UInt8} (he : e ∉ m) (t : List UInt8) :
    ∀ {s : List UInt8}, ¬ (e :: m) <:+: s →
      splitAtMark? (e :: m) (s ++ (e :: m ++ t)) = some (s, t)
  | [], _ => by
      have hp : (e :: m).isPrefixOf (e :: (m ++ t)) = true :=
        List.isPrefixOf_iff_prefix.2 (List.prefix_append (e :: m) t)
      rw [List.nil_append, List.cons_append, splitAtMark?, if_pos hp]
      simp
  | b :: s, h => by
      rw [List.infix_cons_iff, not_or] at h
      have hp : ¬ (e :: m) <+: b :: s ++ (e :: m ++ t) := by
        intro hp
        rcases List.prefix_or_prefix_of_prefix hp (List.prefix_append (b :: s) _) with h' | ⟨u, hu⟩
        · exact h.1 h'
        · rw [← hu, List.prefix_append_right_inj] at hp
          cases u with
          | nil => exact h.1 ⟨[], by simpa using hu.symm⟩
          | cons f u =>
            obtain ⟨rfl, -⟩ := List.cons_prefix_cons.1 hp
            rw [List.cons_append, List.cons.injEq] at hu
            exact he (by simp [← hu.2, hu.1])
      rw [List.cons_append, splitAtMark?, if_neg (by rwa [List.isPrefixOf_iff_prefix]),
        splitAtMark?_append_mark he t h.2]
      rfl

/-- Bytes in front of a first mark, and those behind it, are found again in the whole. -/
theorem append_mark_inj {e : UInt8} {m s' t t' : List UInt8} (he : e ∉ m) (h : ¬ (e :: m) <:+: s)
    (h' : ¬ (e :: m) <:+: s') (heq : s ++ (e :: m ++ t) = s' ++ (e :: m ++ t')) :
    s = s' ∧ t = t' := by
  have hfind := splitAtMark?_append_mark he t h
  rw [heq, splitAtMark?_append_mark he t' h', Option.some.injEq, Prod.mk.injEq] at hfind
  exact ⟨hfind.1.symm, hfind.2.symm⟩

/-! ## The marks of a paste -/

theorem pasteStart_ne_nil : pasteStart ≠ [] := List.cons_ne_nil _ _

theorem pasteEnd_ne_nil : pasteEnd ≠ [] := List.cons_ne_nil _ _

theorem splitAtMark?_append_pasteStart (t : List UInt8) (h : ¬ pasteStart <:+: s) :
    splitAtMark? pasteStart (s ++ (pasteStart ++ t)) = some (s, t) :=
  splitAtMark?_append_mark (by decide) t h

theorem splitAtMark?_append_pasteEnd (t : List UInt8) (h : ¬ pasteEnd <:+: s) :
    splitAtMark? pasteEnd (s ++ (pasteEnd ++ t)) = some (s, t) :=
  splitAtMark?_append_mark (by decide) t h

theorem append_pasteStart_inj {s' t t' : List UInt8} (h : ¬ pasteStart <:+: s)
    (h' : ¬ pasteStart <:+: s') (heq : s ++ (pasteStart ++ t) = s' ++ (pasteStart ++ t')) :
    s = s' ∧ t = t' :=
  append_mark_inj (by decide) h h' heq

theorem append_pasteEnd_inj {s' t t' : List UInt8} (h : ¬ pasteEnd <:+: s)
    (h' : ¬ pasteEnd <:+: s') (heq : s ++ (pasteEnd ++ t) = s' ++ (pasteEnd ++ t')) :
    s = s' ∧ t = t' :=
  append_mark_inj (by decide) h h' heq

end ShellLine
