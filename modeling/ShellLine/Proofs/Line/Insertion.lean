import Mathlib.Data.List.Basic
import ShellLine.Proofs.Line.Between

/-!
# Proofs/Line/Insertion — what a typed text adds to a line

Each character of a typed text has a **fate**: it is put at the cursor, it steps over the character
there, or it is dropped.  The cursor only moves on, so the fates tell all that the text does to the
line: what is not dropped comes to stand left of the cursor, and what is stepped over leaves the
right side (`insertText_between`).  Nothing that was in the line is lost (`interleaved_insertText`).

The engine is `insert_cases`, which says what one character does in each of the three cases.
-/

namespace ShellLine

/-! ## Two texts in one

A text is interleaved from two others if it has the characters of both, each in their order. -/

/-- Is the third list made of the members of the first two, each in their order? -/
inductive Interleaved {α : Type} : List α → List α → List α → Prop
  | nil : Interleaved [] [] []
  | left {a : α} {s t u : List α} : Interleaved s t u → Interleaved (a :: s) t (a :: u)
  | right {a : α} {s t u : List α} : Interleaved s t u → Interleaved s (a :: t) (a :: u)

namespace Interleaved

variable {α : Type} {s t u : List α}

theorem nil_right (s : List α) : Interleaved s [] s := by
  induction s with
  | nil => exact .nil
  | cons a s ih => exact ih.left

theorem append (h : Interleaved s t u) {s' t' u' : List α} (h' : Interleaved s' t' u') :
    Interleaved (s ++ s') (t ++ t') (u ++ u') := by
  induction h with
  | nil => exact h'
  | left _ ih => exact ih.left
  | right _ ih => exact ih.right

theorem sublist (h : Interleaved s t u) : s.Sublist u := by
  induction h with
  | nil => exact List.Sublist.slnil
  | left _ ih => exact ih.cons_cons _
  | right _ ih => exact ih.cons _

theorem length_eq (h : Interleaved s t u) : u.length = s.length + t.length := by
  induction h with
  | nil => rfl
  | left _ ih => simp only [List.length_cons, ih]; omega
  | right _ ih => simp only [List.length_cons, ih]; omega

end Interleaved

/-! ## The fate of a typed character -/

/-- What becomes of a typed character: it is put at the cursor, it steps over the character there,
or it is dropped. -/
inductive Fate
  | put
  | passed
  | dropped
  deriving DecidableEq

/-- The characters of one fate. -/
def ofFate (fate : Fate) (typed : List (Char × Fate)) : List Char :=
  (typed.filter (·.2 = fate)).map Prod.fst

/-- The characters that were put or stepped over, in the order of typing. -/
def kept (typed : List (Char × Fate)) : List Char :=
  (typed.filter (·.2 ≠ .dropped)).map Prod.fst

/-- What is kept of a typed text is what was stepped over and what was put. -/
theorem interleaved_kept (typed : List (Char × Fate)) :
    Interleaved (ofFate .passed typed) (ofFate .put typed) (kept typed) := by
  induction typed with
  | nil => exact .nil
  | cons p typed ih =>
    obtain ⟨c, fate⟩ := p
    cases fate with
    | put => exact ih.right
    | passed => exact ih.left
    | dropped => exact ih

namespace Line

/-- What becomes of a character that is typed. -/
def fate (l : Line) (c : Char) : Fate :=
  if isQuote c then if l.stepsOver c then .passed else .put
  else if isBlank c && l.besideBlank then .dropped
  else .put

/-- The characters of a text that is typed, each with what becomes of it. -/
def fates (l : Line) : List Char → List (Char × Fate)
  | [] => []
  | c :: s => (c, l.fate c) :: fates (l.insert c) s

variable {left right : List Char} {c : Char}

/-- **What one character does.** -/
theorem insert_cases (left right : List Char) (c : Char) :
    (between left right).fate c = .put ∧
        (between left right).insert c = between (left ++ [c]) right ∨
      (∃ behind, right = c :: behind ∧ isQuote c = true ∧ (between left right).fate c = .passed ∧
        (between left right).insert c = between (left ++ [c]) behind) ∨
      isBlank c = true ∧ (between left right).fate c = .dropped ∧
        (between left right).insert c = between left right := by
  rw [insert_between, fate]
  split
  next hq =>
    split
    next hover =>
      obtain ⟨behind, rfl⟩ : ∃ behind, right = c :: behind := by
        rw [stepsOver, rest_between, Bool.and_eq_true, beq_iff_eq, beq_iff_eq] at hover
        exact List.head?_eq_some_iff.1 hover.2
      exact .inr (.inl ⟨behind, rfl, hq, rfl, rfl⟩)
    next => exact .inl ⟨rfl, rfl⟩
  next =>
    split
    next hbeside => exact .inr (.inr ⟨(Bool.and_eq_true_iff.1 hbeside).1, rfl, rfl⟩)
    next => exact .inl ⟨rfl, rfl⟩

/-- A character is put exactly if it is in the text afterwards, at the cursor. -/
theorem fate_eq_put_iff :
    (between left right).fate c = .put ↔
      ((between left right).insert c).text = left ++ c :: right := by
  obtain ⟨hfate, hinsert⟩ | ⟨behind, rfl, -, hfate, hinsert⟩ | ⟨-, hfate, hinsert⟩ :=
    insert_cases left right c
  · simp [hfate, hinsert]
  · simp [hfate, hinsert]
  · simp [hfate, hinsert]

/-- A character is dropped exactly if the line stays the same. -/
theorem fate_eq_dropped_iff :
    (between left right).fate c = .dropped ↔
      (between left right).insert c = between left right := by
  obtain ⟨hfate, hinsert⟩ | ⟨behind, rfl, -, hfate, hinsert⟩ | ⟨-, hfate, hinsert⟩ :=
    insert_cases left right c
  · simp [hfate, hinsert, between_inj]
  · simp [hfate, hinsert, between_inj]
  · simp [hfate, hinsert]

/-! ## Typing a text -/

theorem map_fst_fates (l : Line) (s : List Char) : (l.fates s).map Prod.fst = s := by
  induction s generalizing l with
  | nil => rfl
  | cons c s ih => exact congrArg (c :: ·) (ih (l.insert c))

/-- **A typed text moves the line on**: what is kept of it comes to stand left of the cursor, and
what it steps over leaves the right side. -/
theorem insertText_between (left right s : List Char) :
    ∃ behind, right = ofFate .passed ((between left right).fates s) ++ behind ∧
      (between left right).insertText s =
        between (left ++ kept ((between left right).fates s)) behind := by
  induction s generalizing left right with
  | nil =>
    refine ⟨right, rfl, ?_⟩
    rw [fates, kept, List.filter_nil, List.map_nil, List.append_nil]
    rfl
  | cons c s ih =>
    rw [insertText, List.foldl_cons, ← insertText, fates]
    obtain ⟨hfate, hinsert⟩ | ⟨behind, rfl, -, hfate, hinsert⟩ | ⟨-, hfate, hinsert⟩ :=
      insert_cases left right c
    · rw [hfate, hinsert]
      obtain ⟨behind, hright, hline⟩ := ih (left ++ [c]) right
      refine ⟨behind, hright, ?_⟩
      rw [hline, List.append_assoc]
      rfl
    · rw [hfate, hinsert]
      obtain ⟨rest, hright, hline⟩ := ih (left ++ [c]) behind
      refine ⟨rest, congrArg (c :: ·) hright, ?_⟩
      rw [hline, List.append_assoc]
      rfl
    · rw [hfate, hinsert]
      exact ih left right

/-- Only quotes are stepped over, and only blanks are dropped. -/
theorem forall_mem_fates (left right s : List Char) :
    ∀ p ∈ (between left right).fates s,
      (p.2 = .passed → isQuote p.1 = true) ∧ (p.2 = .dropped → isBlank p.1 = true) := by
  induction s generalizing left right with
  | nil => exact List.forall_mem_nil _
  | cons c s ih =>
    rw [fates, List.forall_mem_cons]
    obtain ⟨hfate, hinsert⟩ | ⟨behind, rfl, hq, hfate, hinsert⟩ | ⟨hb, hfate, hinsert⟩ :=
      insert_cases left right c
    · rw [hfate, hinsert]
      exact ⟨by simp, ih _ _⟩
    · rw [hfate, hinsert]
      exact ⟨by simp [hq], ih _ _⟩
    · rw [hfate, hinsert]
      exact ⟨by simp [hb], ih _ _⟩

theorem mem_ofFate {fate : Fate} {typed : List (Char × Fate)} {c : Char} :
    c ∈ ofFate fate typed ↔ (c, fate) ∈ typed := by
  simp [ofFate]

/-- **Typing loses nothing.**  Each character of a typed text is put, steps over one, or is dropped.
The line keeps its text left of the cursor and takes behind it what is not dropped; right of the
cursor it loses what is stepped over, which are quotes only; and so its new text is the old one with
the characters that are put between.  Only blanks are dropped. -/
theorem interleaved_insertText {l : Line} (hl : l.IsInside) (s : List Char) :
    let typed : List (Char × Fate) := l.fates s
    let new : Line := l.insertText s
    typed.map Prod.fst = s ∧
      new.start = l.start ++ kept typed ∧
      l.rest = ofFate .passed typed ++ new.rest ∧
      Interleaved l.text (ofFate .put typed) new.text ∧
      l.text.Sublist new.text ∧
      new.length = l.length + (ofFate .put typed).length ∧
      (ofFate .passed typed).length = l.rest.length - new.rest.length ∧
      (∀ c ∈ ofFate .passed typed, isQuote c = true) ∧
      ∀ c ∈ ofFate .dropped typed, isBlank c = true := by
  obtain ⟨left, right, rfl⟩ := isInside_iff.1 hl
  intro typed new
  obtain ⟨behind, hright, hnew⟩ := insertText_between left right s
  have hline : new = between (left ++ kept typed) behind := hnew
  have hrest : right = ofFate .passed typed ++ behind := hright
  have hold : (between left right).text = left ++ (ofFate .passed typed ++ behind) :=
    congrArg (left ++ ·) hrest
  have htext : new.text = left ++ (kept typed ++ behind) := by
    rw [hline, text_between, List.append_assoc]
  have hwoven : Interleaved (between left right).text (ofFate .put typed) new.text := by
    have hkept := (interleaved_kept typed).append (.nil_right behind)
    rw [List.append_nil] at hkept
    rw [hold, htext]
    exact (Interleaved.nil_right left).append hkept
  refine ⟨map_fst_fates _ s, ?_, ?_, hwoven, hwoven.sublist, hwoven.length_eq, ?_, ?_, ?_⟩
  · rw [hline, start_between, start_between]
  · rw [hline, rest_between, rest_between]
    exact hrest
  · rw [hline, rest_between, rest_between, hrest, List.length_append, Nat.add_sub_cancel]
  · intro c hc
    exact (forall_mem_fates left right s _ (mem_ofFate.1 hc)).1 rfl
  · intro c hc
    exact (forall_mem_fates left right s _ (mem_ofFate.1 hc)).2 rfl

/-- A quote that closes a value, a blank in front of a blank, and a letter between the two. -/
theorem interleaved_insertText_closing :
    (between ['\x22', 'a'] ['\x22', ' ', 'b']).IsInside ∧
      (between ['\x22', 'a'] ['\x22', ' ', 'b']).fates ['\x22', ' ', 'c'] =
        [('\x22', .passed), (' ', .dropped), ('c', .put)] ∧
      Interleaved ['\x22', 'a', '\x22', ' ', 'b'] ['c']
        ((between ['\x22', 'a'] ['\x22', ' ', 'b']).insertText ['\x22', ' ', 'c']).text := by
  have hinside : (between ['\x22', 'a'] ['\x22', ' ', 'b']).IsInside := isInside_between _ _
  have hfates : (between ['\x22', 'a'] ['\x22', ' ', 'b']).fates ['\x22', ' ', 'c'] =
      [('\x22', .passed), (' ', .dropped), ('c', .put)] := by
    decide +kernel
  have hwoven := (interleaved_insertText hinside ['\x22', ' ', 'c']).2.2.2.1
  rw [hfates] at hwoven
  exact ⟨hinside, hfates, hwoven⟩

end Line

end ShellLine
