import Mathlib.Data.List.DropRight
import ShellLine.Cli.Run
import ShellLine.Proofs.Json.Paths
import ShellLine.Proofs.Line.Between
import ShellLine.Proofs.Text.Columns

/-!
# Proofs/Cli/Cursor — the cursor that the command line shows

`edit` types a text, sets the cursor to the index that is asked for, and goes back by words.  Setting
the cursor is going on from the start, which stops at the end of the line only; going back by a word
stops at the start, wherever it begins.  So the cursor is inside the line exactly if the index is not
negative, or there is a word to go back by (`isInside_typeAndMove_iff`), and what is printed shows it
so exactly then (`runPlan_edit_iff`).
-/

namespace ShellLine

namespace Line

variable {l : Line} {boundary : Char → Bool} {n : Int}

/-- Going back by a word leads inside the line, from outside of it, too. -/
theorem isInside_backWord (l : Line) (boundary : Char → Bool) : (l.backWord boundary).IsInside := by
  have hstart : l.start.length ≤ l.text.length := List.length_take_le' ..
  have hstop : lastStop boundary l.start.dropLast ≤ l.start.length :=
    Nat.le_trans (lastStop_le boundary _) (by simp)
  exact ⟨Int.natCast_nonneg _, Int.ofNat_le.2 (Nat.le_trans hstop hstart)⟩

theorem backWords_of_nonpos (h : n ≤ 0) : l.backWords boundary n = l := by
  rw [backWords, Int.toNat_of_nonpos h]
  rfl

theorem isInside_backWords_of_pos (h : 0 < n) : (l.backWords boundary n).IsInside := by
  obtain ⟨k, rfl⟩ := Int.eq_succ_of_zero_lt h
  exact isInside_backWord _ boundary

theorem isInside_backWords_iff : (l.backWords boundary n).IsInside ↔ l.IsInside ∨ 0 < n := by
  by_cases h : 0 < n
  · exact iff_of_true (isInside_backWords_of_pos h) (.inr h)
  · rw [backWords_of_nonpos (Int.not_lt.1 h)]
    exact (or_iff_left h).symm

/-- Going on from the start leads to the left of the line if the count is negative. -/
theorem isInside_forward_toStart_iff : (l.toStart.forward n).IsInside ↔ 0 ≤ n := by
  have hcursor : (l.toStart.forward n).cursor = min n l.length := by
    rw [forward, toStart, Int.zero_add]
    rfl
  constructor
  · intro h
    have hnonneg := h.nonneg
    rw [hcursor] at hnonneg
    exact Int.le_trans hnonneg (Int.min_le_left ..)
  · intro h
    refine ⟨?_, ?_⟩
    · rw [hcursor]
      exact Int.le_min.2 ⟨h, Int.natCast_nonneg _⟩
    · rw [hcursor]
      exact Int.min_le_right ..

theorem isInside_insertText_empty (text : List Char) : (empty.insertText text).IsInside := by
  rw [insertText_eq_applyAll]
  exact isInside_empty.applyAll _

/-- What is right of a cursor inside the line are the last `shift` characters. -/
theorem IsInside.rest_eq_rtake (h : l.IsInside) : l.rest = l.text.rtake l.shift.toNat := by
  obtain ⟨left, right, rfl⟩ := isInside_iff.1 h
  have hshift : (between left right).shift.toNat = right.length := by
    rw [shift, cursor_between, length_between]
    omega
  rw [rest_between, hshift, text_between, List.rtake, List.length_append, Nat.add_sub_cancel,
    List.drop_left]

end Line

variable {wordChars text : List Char} {cursor? : Option Int} {wordsLeft : Int}

/-- **Where the cursor is inside**: the index is not negative, or there is a word to go back by. -/
theorem isInside_typeAndMove_iff :
    (typeAndMove wordChars text cursor? wordsLeft).IsInside ↔
      (∀ n ∈ cursor?, 0 ≤ n) ∨ 0 < wordsLeft := by
  cases cursor? with
  | none =>
    refine Line.isInside_backWords_iff.trans (or_congr_left ?_)
    exact iff_of_true (Line.isInside_insertText_empty text) nofun
  | some n =>
    refine Line.isInside_backWords_iff.trans (or_congr_left ?_)
    simp only [Line.isInside_forward_toStart_iff, Option.mem_some_iff, forall_eq']

theorem cursor_typeAndMove_of_neg {n : Int} (hn : n < 0) (hwords : wordsLeft ≤ 0) :
    (typeAndMove wordChars text (some n) wordsLeft).cursor = n := by
  change (((Line.empty.insertText text).toStart.forward n).backWords _ wordsLeft).cursor = n
  rw [Line.backWords_of_nonpos hwords]
  dsimp only [Line.forward, Line.toStart]
  omega

/-! ## The report of a line -/

section

variable [Typography]

/-- Does the report of a line show a cursor inside its text, how many characters there are from it to
the end, and how many columns just these take? -/
def Json.ShowsCursorInside (report : Json) : Prop :=
  ∃ (buffer : List Char) (cursor : Int) (shift : Nat),
    report.follow? ["buffer".toList] = some (.str buffer) ∧
    report.follow? ["cursor".toList] = some (.int cursor) ∧
    report.follow? ["shift".toList] = some (.int shift) ∧
    report.follow? ["shift_width".toList] = some (.int (columns (buffer.rtake shift))) ∧
    0 ≤ cursor ∧ cursor ≤ buffer.length ∧ shift = buffer.length - cursor

namespace Report

variable (l : Line)

theorem follow?_buffer : (line l).follow? ["buffer".toList] = some (.str l.text) := rfl

theorem follow?_cursor : (line l).follow? ["cursor".toList] = some (.int l.cursor) := rfl

theorem follow?_shift : (line l).follow? ["shift".toList] = some (.int l.shift) := rfl

theorem follow?_shiftWidth :
    (line l).follow? ["shift_width".toList] = some (.int l.shiftWidth) := rfl

/-- **The report of a line shows the cursor inside** exactly if it is there. -/
theorem showsCursorInside_line_iff : (line l).ShowsCursorInside ↔ l.IsInside := by
  constructor
  · rintro ⟨buffer, cursor, shift, hbuffer, hcursor, -, -, hnonneg, hle, -⟩
    rw [follow?_buffer] at hbuffer
    rw [follow?_cursor] at hcursor
    cases hbuffer
    cases hcursor
    exact ⟨hnonneg, hle⟩
  · intro h
    obtain ⟨n, hn⟩ := Int.eq_ofNat_of_zero_le (Int.sub_nonneg.2 h.le_length)
    have hshift : l.shift = n := hn
    have hwidth : l.shiftWidth = columns (l.text.rtake n) := by
      rw [Line.shiftWidth, h.rest_eq_rtake, hshift, Int.toNat_natCast]
    refine ⟨l.text, l.cursor, n, follow?_buffer l, follow?_cursor l, ?_, ?_, h.nonneg,
      h.le_length, hn.symm⟩
    · rw [follow?_shift, hshift]
    · rw [follow?_shiftWidth, hwidth]

end Report

end

/-! ## What can be printed -/

/-- A number can be written if a greater one can. -/
theorem Integer.isWritable_of_le {m n : Nat} (h : m ≤ n) (hn : isWritable n = true) :
    isWritable m = true := by
  have hpos : 0 < maxDigits := by decide
  rw [isWritable, decide_eq_true_eq, Int.natAbs_natCast, Nat.length_toDigits_le_iff (by decide) hpos]
    at hn ⊢
  exact Nat.lt_of_le_of_lt h hn

@[simp] theorem Json.isWritable_str (s : List Char) : (str s).isWritable = true := by
  simp [isWritable]

theorem Json.areWritable_map {α : Type} {f : α → Json} (h : ∀ a, (f a).isWritable = true)
    {as : List α} : areWritable (as.map f) = true := by
  induction as with
  | nil => rw [List.map_nil, areWritable]
  | cons a as ih => rw [List.map_cons, areWritable, h a, ih, Bool.and_self]

namespace Report

@[simp] theorem isWritable_text (s : String) : (Report.text s).isWritable = true :=
  Json.isWritable_str _

@[simp] theorem isWritable_value (v : Value) : (value v).isWritable = true := by
  cases v <;> simp [value, field, Json.isWritable, Json.areFieldsWritable]

theorem isWritable_assignment (a : Assignment) : (assignment a).isWritable = true := by
  simp [assignment, field, Json.isWritable, Json.areFieldsWritable]

/-- The only number in the report of a command is its offset. -/
theorem isWritable_command (c : Command) :
    (command c).isWritable = Integer.isWritable c.offset := by
  have hassignments : Json.areWritable (c.assignments.map assignment) = true :=
    Json.areWritable_map isWritable_assignment
  have harguments : Json.areWritable (c.arguments.map value) = true :=
    Json.areWritable_map isWritable_value
  have herrors : Json.areWritable (c.errors.map fun e => .str e.message) = true :=
    Json.areWritable_map fun _ => Json.isWritable_str _
  simp [command, field, Json.isWritable, Json.areFieldsWritable, hassignments, harguments, herrors]

/-- The report of a line with the cursor inside can be printed: no number in it is more than twice
the length of the text, if no character takes more than two columns. -/
theorem isWritable_line [Typography] (hflatten : ∀ s, (Typography.clusters s).flatten = s)
    (hle : ∀ c, Typography.charColumns c ≤ 2) {l : Line} (hl : l.IsInside)
    (hlength : Integer.isWritable (2 * l.length : Nat) = true) : (line l).isWritable = true := by
  have hbound : ∀ n : Nat, n ≤ 2 * l.length → Integer.isWritable n = true := fun n hn =>
    Integer.isWritable_of_le hn hlength
  have hwidth : l.shiftWidth ≤ 2 * l.length := by
    have hrest : l.rest.length ≤ l.length := (List.drop_sublist ..).length_le
    exact Nat.le_trans (columns_le hflatten hle l.rest) (Nat.mul_le_mul_left 2 hrest)
  have hoffset : l.command.offset ≤ 2 * l.length := by
    have hle : l.command.offset ≤ l.length := Nat.sub_le ..
    omega
  obtain ⟨n, hn⟩ := Int.eq_ofNat_of_zero_le hl.nonneg
  obtain ⟨m, hm⟩ := Int.eq_ofNat_of_zero_le (Int.sub_nonneg.2 hl.le_length)
  have hle := hl.le_length
  have hcursor : Integer.isWritable l.cursor = true := by
    rw [hn]
    exact hbound n (by omega)
  have hshift : Integer.isWritable l.shift = true := by
    rw [Line.shift, hm]
    exact hbound m (by omega)
  simp [line, field, Json.isWritable, Json.areFieldsWritable, hcursor, hshift,
    hbound _ hwidth, isWritable_command, hbound _ hoffset]

end Report

/-! ## Runs -/

section

variable [Typography] [Console]
  {user project : FileContent} {plan : Plan} {s : Settings}

/-- A run of `edit` prints the line that typing and moving make, whatever the settings are that it
accepts. -/
theorem runPlan_edit (hload : Settings.load? user project = .ok s)
    (hwords : s.wordChars? = .ok wordChars)
    (hplan : plan.request? = some (.done (.edit text cursor? wordsLeft))) :
    runPlan user project plan =
      Ending.ofJson (Report.line (typeAndMove wordChars text cursor? wordsLeft)) := by
  rw [runPlan, hload]
  dsimp only
  rw [hplan]
  dsimp only
  rw [runRequest, hwords]

/-- **The cursor that `edit` shows**, for any settings that it accepts, any text, index and number of
words, however they were read and texts are measured: what is printed shows it inside the text, with
the characters and columns right of it, exactly if the index is not negative or there is a word to go
back by; then it is printed, unless the text is so long that twice its length cannot be written.
Otherwise the negative index itself is shown. -/
theorem runPlan_edit_iff (hload : Settings.load? user project = .ok s)
    (hwords : s.wordChars? = .ok wordChars)
    (hplan : plan.request? = some (.done (.edit text cursor? wordsLeft))) :
    let l := typeAndMove wordChars text cursor? wordsLeft
    let report := Report.line l
    runPlan user project plan = Ending.ofJson report ∧
    (report.ShowsCursorInside ↔ (∀ n ∈ cursor?, 0 ≤ n) ∨ 0 < wordsLeft) ∧
    ((∀ s, (Typography.clusters s).flatten = s) → (∀ c, Typography.charColumns c ≤ 2) →
      report.ShowsCursorInside → Integer.isWritable (2 * l.length : Nat) = true →
      report.isWritable = true) ∧
    ∀ n, cursor? = some n → n < 0 → wordsLeft ≤ 0 →
      report.follow? ["cursor".toList] = some (.int n) := by
  intro l report
  have hinside : report.ShowsCursorInside ↔ l.IsInside := Report.showsCursorInside_line_iff l
  refine ⟨runPlan_edit hload hwords hplan, ?_, ?_, ?_⟩
  · rw [hinside, isInside_typeAndMove_iff]
  · exact fun hflatten hle h => Report.isWritable_line hflatten hle (hinside.1 h)
  · rintro n rfl hn hleft
    rw [Report.follow?_cursor, cursor_typeAndMove_of_neg hn hleft]

end

/-- A word back from an index in front of the line. -/
theorem runPlan_edit_iff_word_back :
    let args := ["edit".toList, "a b".toList, "--cursor".toList, "-1".toList, "--word-left".toList,
      "1".toList]
    let plan : Plan := ⟨none, some (.done (.edit "a b".toList (some (-1)) 1))⟩
    let s : Settings := ⟨true, [], [], none⟩
    let l := typeAndMove defaultWordChars "a b".toList (some (-1)) 1
    let report := Report.line l
    Plan.read args = .done plan ∧
    Settings.load? .missing .missing = .ok s ∧ s.wordChars? = .ok defaultWordChars ∧
    plan.request? = some (.done (.edit "a b".toList (some (-1)) 1)) ∧
    runPlan .missing .missing plan = Ending.ofJson report ∧ report.ShowsCursorInside ∧
    report.isWritable = true := by
  intro args plan s l report
  have hread : Plan.read args = .done plan := by decide +kernel
  have hload : Settings.load? .missing .missing = .ok s := rfl
  have hplan : plan.request? = some (.done (.edit "a b".toList (some (-1)) 1)) := rfl
  obtain ⟨hrun, hshows, hwritable, -⟩ := runPlan_edit_iff hload rfl hplan
  have hinside : report.ShowsCursorInside := hshows.2 (.inr (by decide))
  have hprinted : report.isWritable = true := hwritable
    (flatten_clustersBy Unicode.graphemeClass Unicode.breakStep) Unicode.charColumns_le hinside
    (by decide +kernel)
  exact ⟨hread, hload, rfl, hplan, hrun, hinside, hprinted⟩

/-- The cursor is not always shown inside: here the index that is asked for is in front of the line,
and is printed as it is. -/
theorem not_forall_showsCursorInside :
    ¬ ∀ (user project : FileContent) (plan : Plan) (text : List Char) (cursor? : Option Int)
      (wordsLeft : Int) (report : Json),
      plan.request? = some (.done (.edit text cursor? wordsLeft)) →
      report.isWritable = true → runPlan user project plan = Ending.ofJson report →
      report.ShowsCursorInside := by
  intro h
  have hwritable :
      (Report.line (typeAndMove defaultWordChars "abc".toList (some (-1)) 0)).isWritable = true := by
    decide +kernel
  have hshows := h .missing .missing ⟨none, some (.done (.edit "abc".toList (some (-1)) 0))⟩ _ _ _ _
    rfl hwritable (runPlan_edit rfl rfl rfl)
  rw [Report.showsCursorInside_line_iff, isInside_typeAndMove_iff] at hshows
  revert hshows
  decide

end ShellLine
