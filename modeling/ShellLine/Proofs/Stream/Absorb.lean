import ShellLine.Proofs.Stream.Marks
import ShellLine.Proofs.Stream.Keys

/-!
# Proofs/Stream/Absorb — bytes that are taken in, mark by mark

Bytes go on until the next mark: outside a paste until its first mark, inside until its last.

* `marks_induction` is the induction over the marks of some bytes, and the four `absorb_of_…` say
  what `absorb` does in each of its cases.
* `Pending.IsSettled` is what is pending between reads (`isSettled_absorb`): no key and no mark that
  could be taken out.
-/

namespace ShellLine

/-! ## What is pending between reads -/

namespace Pending

/-- The bytes that are kept. -/
def data : Pending → List UInt8
  | held data => data
  | pasting body => body

/-- Is a paste under way? -/
def isPasting : Pending → Bool
  | held _ => false
  | pasting _ => true

/-- Bytes that are kept inside a paste or outside. -/
def ofData (pasting : Bool) (data : List UInt8) : Pending :=
  if pasting then .pasting data else .held data

/-- The bytes of the stream that are kept: those of a paste came behind its first mark. -/
def bytes : Pending → List UInt8
  | held data => data
  | pasting body => pasteStart ++ body

/-- Nothing that is pending can be passed on: what is held has no whole key and no first mark of a
paste, the body of a paste has no last mark. -/
def IsSettled : Pending → Prop
  | held data => splitKeys data = ([], data) ∧ ¬ pasteStart <:+: data
  | pasting body => ¬ pasteEnd <:+: body

@[simp] theorem bytes_ofData (p : Pending) (more : List UInt8) :
    (ofData p.isPasting (p.data ++ more)).bytes = p.bytes ++ more := by
  cases p <;> simp [ofData, isPasting, data, bytes]

end Pending

/-! ## Runs of keys -/

/-- Keys in a row, which do not make up the first mark of a paste by accident. -/
structure IsKeyRun (keys : List (List UInt8)) : Prop where
  each : ∀ x ∈ keys, IsKey x
  noStart : ¬ pasteStart <:+: keys.flatten

namespace IsKeyRun

variable {keys later : List (List UInt8)}

protected theorem nil : IsKeyRun [] where
  each := by simp
  noStart := by decide

theorem of_append_right (h : IsKeyRun (keys ++ later)) : IsKeyRun later := by
  refine ⟨fun x hx => h.each x (by simp [hx]), fun hstart => h.noStart ?_⟩
  rw [List.flatten_append]
  exact hstart.trans (List.suffix_append _ _).isInfix

theorem splitKeys_flatten (h : IsKeyRun keys) : splitKeys keys.flatten = (keys, []) :=
  ShellLine.splitKeys_flatten h.each

end IsKeyRun

/-! ## From mark to mark -/

variable {data before body : List UInt8}

/-- **Induction over marks**: bytes outside a paste hold no first mark, or go on inside one behind
it; bytes inside a paste hold no last mark, or go on outside behind it. -/
@[elab_as_elim]
theorem marks_induction {motive : Bool → List UInt8 → Prop}
    (held : ∀ data, ¬ pasteStart <:+: data → motive false data)
    (start : ∀ before after, ¬ pasteStart <:+: before → motive true after →
      motive false (before ++ (pasteStart ++ after)))
    (opened : ∀ body, ¬ pasteEnd <:+: body → motive true body)
    (closed : ∀ body after, ¬ pasteEnd <:+: body → motive false after →
      motive true (body ++ (pasteEnd ++ after))) (pasting : Bool) (data : List UInt8) :
    motive pasting data := by
  fun_induction absorb pasting data with
  | case1 data hfind => exact opened data ((splitAtMark?_eq_none_iff pasteEnd_ne_nil).1 hfind)
  | case2 data body after hfind _ r ih =>
    rw [← eq_of_splitAtMark? hfind, List.append_assoc]
    exact closed body after (not_infix_of_splitAtMark? pasteEnd_ne_nil hfind) ih
  | case3 pasting data hp hfind r =>
    obtain rfl : pasting = false := Bool.not_eq_true pasting ▸ hp
    exact held data ((splitAtMark?_eq_none_iff pasteStart_ne_nil).1 hfind)
  | case4 pasting data hp before after hfind _ r ih =>
    obtain rfl : pasting = false := Bool.not_eq_true pasting ▸ hp
    rw [← eq_of_splitAtMark? hfind, List.append_assoc]
    exact start before after (not_infix_of_splitAtMark? pasteStart_ne_nil hfind) ih

/-- Without a first mark keys are taken out, and the beginning of the next is held. -/
theorem absorb_of_held (h : ¬ pasteStart <:+: data) :
    absorb false data = ((splitKeys data).1, .held (splitKeys data).2) := by
  have hfind := (splitAtMark?_eq_none_iff pasteStart_ne_nil).2 h
  rw [absorb, if_neg Bool.false_ne_true]
  split <;> simp_all

/-- At a first mark whole keys are taken out, and a paste begins. -/
theorem absorb_of_start (h : ¬ pasteStart <:+: before) (after : List UInt8) :
    absorb false (before ++ (pasteStart ++ after)) =
      ((splitKeys before).1 ++ (absorb true after).1, (absorb true after).2) := by
  have hfind := splitAtMark?_append_pasteStart after h
  rw [absorb, if_neg Bool.false_ne_true]
  split <;> simp_all

/-- Without a last mark the paste goes on. -/
theorem absorb_of_opened (h : ¬ pasteEnd <:+: body) : absorb true body = ([], .pasting body) := by
  have hfind := (splitAtMark?_eq_none_iff pasteEnd_ne_nil).2 h
  rw [absorb, if_pos rfl]
  split <;> simp_all

/-- At a last mark the paste is passed on. -/
theorem absorb_of_closed (h : ¬ pasteEnd <:+: body) (after : List UInt8) :
    absorb true (body ++ (pasteEnd ++ after)) =
      (pasteSequence body :: (absorb false after).1, (absorb false after).2) := by
  have hfind := splitAtMark?_append_pasteEnd after h
  rw [absorb, if_pos rfl]
  split <;> simp_all

/-- Bytes that are taken in leave nothing behind that could be passed on. -/
theorem isSettled_absorb (pasting : Bool) (data : List UInt8) :
    (absorb pasting data).2.IsSettled := by
  induction pasting, data using marks_induction with
  | held data h =>
    rw [absorb_of_held h]
    have hsuffix : (splitKeys data).2 <:+ data :=
      ⟨(splitKeys data).1.flatten, flatten_splitKeys data⟩
    exact ⟨splitKeys_snd data, fun hr => h (hr.trans hsuffix.isInfix)⟩
  | start before after h ih =>
    rw [absorb_of_start h]
    exact ih
  | opened body h =>
    rw [absorb_of_opened h]
    exact h
  | closed body after h ih =>
    rw [absorb_of_closed h]
    exact ih

end ShellLine
