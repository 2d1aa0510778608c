import ShellLine.Proofs.Json.Merge
import ShellLine.Proofs.Settings.Reading

/-!
# Proofs/Settings/Precedence — what overrides outlast

Overrides go before the files, until the files are read again.  `Settings.latest?` is what the
overrides of a run said last on a key.  As long as no reading comes to an end, each change says on a
key what its overrides say, and else leaves it (`Settings.get?_step`); a reading that comes to an
end forgets them all.

So a value that was set last is kept exactly if it was set after the last such reading, or if the
files that were read then hold it, too (`Settings.get?_run_iff`).
-/

namespace ShellLine.Settings

variable {user project : FileContent} {s : Settings} {c : Change} {changes after : List Change}
  {key : List Char} {v : Json}

/-! ## What a change says -/

namespace Change

/-- The overrides are an object of JSON. -/
def IsProper : Change → Prop
  | override fields => (Json.obj fields).HasDistinctKeys
  | reload _ _ => True

/-- Both files are read to the end. -/
def Reads : Change → Prop
  | override _ => False
  | reload user project => ¬user.IsUnreadable ∧ ¬project.IsUnreadable

/-- What the overrides say on a key. -/
def said? (key : List Char) : Change → Option Json
  | override fields => Json.said? key fields
  | reload _ _ => none

end Change

/-- What the overrides of some changes said last on a key. -/
def latest? (key : List Char) : List Change → Option Json
  | [] => none
  | c :: changes => (latest? key changes).or (c.said? key)

theorem latest?_append (key : List Char) (before after : List Change) :
    latest? key (before ++ after) = (latest? key after).or (latest? key before) := by
  induction before with
  | nil => rw [List.nil_append, latest?, Option.or_none]
  | cons c before ih => rw [List.cons_append, latest?, latest?, ih, Option.or_assoc]

theorem latest?_reload_cons (key : List Char) (user project : FileContent) (after : List Change) :
    latest? key (.reload user project :: after) = latest? key after :=
  Option.or_none

/-! ## One change -/

theorem all_step_of_not_reads (hfiles : s.fromFiles = true)
    (h : ¬(Change.reload user project).Reads) : (s.step (.reload user project)).all = s.all := by
  have hstopped : user.IsUnreadable ∨ project.IsUnreadable := by
    by_contra hread
    exact h (not_or.1 hread)
  exact (reload_of_isUnreadable hfiles hstopped).2

theorem all_step_of_reads (hfiles : s.fromFiles = true) (h : (Change.reload user project).Reads) :
    (s.step (.reload user project)).all = Json.mergeFields user.counted project.counted :=
  (reflects_reload hfiles h.1 h.2).2.all_eq

/-- **A change that reads no files** leaves under a key what it says on it, over what stood there.
-/
theorem get?_step (hfiles : s.fromFiles = true) (hproper : c.IsProper) (hreads : ¬c.Reads)
    (key : List Char) :
    (s.step c).all.get? key =
      ((c.said? key).map (Json.mergeValue (s.all.get? key))).or (s.all.get? key) := by
  cases c with
  | override fields => exact Json.get?_mergeFields s.all hproper.nodup_keys key
  | reload user project =>
    rw [all_step_of_not_reads hfiles hreads]
    rfl

/-- **Settings stay an object**: no change puts a key into them twice. -/
theorem hasDistinctKeys_step (hfiles : s.fromFiles = true) (hproper : c.IsProper)
    (h : (Json.obj s.all).HasDistinctKeys) : (Json.obj (s.step c).all).HasDistinctKeys := by
  cases c with
  | override fields => exact hproper.merge h
  | reload user project =>
    by_cases hreads : (Change.reload user project).Reads
    · rw [all_step_of_reads hfiles hreads]
      exact (project.hasDistinctKeys_counted).merge user.hasDistinctKeys_counted
    · rwa [all_step_of_not_reads hfiles hreads]

/-! ## Many changes -/

theorem hasDistinctKeys_run (hload : load? user project = .ok s)
    (hproper : ∀ c ∈ changes, c.IsProper) : (Json.obj (s.run changes).all).HasDistinctKeys := by
  have hfiles := fromFiles_of_load? hload
  have hfirst : (Json.obj s.all).HasDistinctKeys := by
    rw [(reflects_of_load? hload).all_eq]
    exact project.hasDistinctKeys_counted.merge user.hasDistinctKeys_counted
  clear hload
  induction changes generalizing s with
  | nil => exact hfirst
  | cons c changes ih =>
    obtain ⟨hc, hproper⟩ := List.forall_mem_cons.1 hproper
    exact ih hproper ((fromFiles_step s c).trans hfiles) (hasDistinctKeys_step hfiles hc hfirst)

/-- **While no files are read**, a key keeps its value until the overrides say something on it, and
then has what they said last, if that is no object. -/
theorem get?_run_of_not_reads (hfiles : s.fromFiles = true) (hproper : ∀ c ∈ after, c.IsProper)
    (hreads : ∀ c ∈ after, ¬c.Reads) (key : List Char) :
    (latest? key after = none → (s.run after).all.get? key = s.all.get? key) ∧
      ∀ v, latest? key after = some v → v.fields? = none →
        (s.run after).all.get? key = some v := by
  induction after generalizing s with
  | nil => exact ⟨fun _ => rfl, nofun⟩
  | cons c after ih =>
    obtain ⟨hc, hproper⟩ := List.forall_mem_cons.1 hproper
    obtain ⟨hread, hreads⟩ := List.forall_mem_cons.1 hreads
    obtain ⟨hkept, hset⟩ := ih ((fromFiles_step s c).trans hfiles) hproper hreads
    have hstep := get?_step hfiles hc hread key
    refine ⟨fun h => ?_, fun v h hfields => ?_⟩
    · obtain ⟨hafter, hsaid⟩ := Option.or_eq_none_iff.1 h
      rw [hsaid] at hstep
      exact (hkept hafter).trans hstep
    · cases hafter : latest? key after with
      | some w =>
        rw [latest?, hafter, Option.some_or, Option.some.injEq] at h
        subst h
        exact hset w hafter hfields
      | none =>
        rw [latest?, hafter, Option.none_or] at h
        rw [h, Option.map_some, Option.some_or, Json.mergeValue_of_fields? _ hfields] at hstep
        exact (hkept hafter).trans hstep

/-- No files were read, or they were read for the last time somewhere. -/
theorem lastReading_cases (changes : List Change) :
    (∀ c ∈ changes, ¬c.Reads) ∨
      ∃ before user project after, changes = before ++ .reload user project :: after ∧
        (Change.reload user project).Reads ∧ ∀ c ∈ after, ¬c.Reads := by
  induction changes with
  | nil => exact .inl nofun
  | cons c changes ih =>
    rcases ih with hnone | ⟨before, user, project, after, rfl, hreads, hafter⟩
    · by_cases hc : c.Reads
      · cases c with
        | override fields => cases hc
        | reload user project => exact .inr ⟨[], user, project, changes, rfl, hc, hnone⟩
      · exact .inl (List.forall_mem_cons.2 ⟨hc, hnone⟩)
    · exact .inr ⟨c :: before, user, project, after, rfl, hreads, hafter⟩

/-- The overrides said a value last on a key, and no files were read after that. -/
def IsSetSinceReading (key : List Char) (v : Json) (changes : List Change) : Prop :=
  ∃ before after, changes = before ++ after ∧ (∀ c ∈ after, ¬c.Reads) ∧ latest? key after = some v

/-- The files that were read last hold a value under a key. -/
def IsInLastFiles (key : List Char) (v : Json) (changes : List Change) : Prop :=
  ∃ before user project after, changes = before ++ .reload user project :: after ∧
    (Change.reload user project).Reads ∧ (∀ c ∈ after, ¬c.Reads) ∧
    (Json.mergeFields user.counted project.counted).get? key = some v

theorem IsSetSinceReading.get?_run (hfiles : s.fromFiles = true)
    (hproper : ∀ c ∈ changes, c.IsProper) (hfields : v.fields? = none)
    (h : IsSetSinceReading key v changes) : (s.run changes).all.get? key = some v := by
  obtain ⟨before, after, rfl, hreads, hlatest⟩ := h
  have hafter : (s.run before).fromFiles = true := (fromFiles_run s before).trans hfiles
  rw [run_append]
  exact (get?_run_of_not_reads hafter (List.forall_mem_append.1 hproper).2 hreads key).2
    v hlatest hfields

/-- A value that was set last was set after the last reading, or before it. -/
theorem isSetSinceReading_or {before : List Change} (hreads : ∀ c ∈ after, ¬c.Reads)
    (hlatest : latest? key (before ++ .reload user project :: after) = some v) :
    IsSetSinceReading key v (before ++ .reload user project :: after) ∨
      latest? key after = none := by
  cases hafter : latest? key after with
  | none => exact .inr rfl
  | some w =>
    rw [latest?_append, latest?_reload_cons, hafter, Option.some_or] at hlatest
    have hsplit : before ++ .reload user project :: after =
        (before ++ [.reload user project]) ++ after := List.append_cons ..
    exact .inl ⟨before ++ [.reload user project], after, hsplit, hreads, hafter.trans hlatest⟩

/-- Where the overrides say nothing on a key after the last reading, it has the value of the files.
-/
theorem get?_run_of_reads {before : List Change} (hfiles : s.fromFiles = true)
    (hproper : ∀ c ∈ before ++ .reload user project :: after, c.IsProper)
    (hreading : (Change.reload user project).Reads) (hreads : ∀ c ∈ after, ¬c.Reads)
    (hlatest : latest? key after = none) :
    (s.run (before ++ .reload user project :: after)).all.get? key =
      (Json.mergeFields user.counted project.counted).get? key := by
  have hbefore : (s.run before).fromFiles = true := (fromFiles_run s before).trans hfiles
  have hread : ((s.run before).step (.reload user project)).fromFiles = true :=
    (fromFiles_step _ _).trans hbefore
  have hafter := (List.forall_mem_cons.1 (List.forall_mem_append.1 hproper).2).2
  have hkept := (get?_run_of_not_reads hread hafter hreads key).1 hlatest
  rw [all_step_of_reads hbefore hreading] at hkept
  rw [run_append]
  exact hkept

/-- **Overrides go before the files** exactly until these are read again: the value that was set
last on a key is kept if it was set since the last reading, or if the files that were read then hold
it. -/
theorem get?_run_iff (hload : load? user project = .ok s) (hproper : ∀ c ∈ changes, c.IsProper)
    (hlatest : latest? key changes = some v) (hfields : v.fields? = none) :
    (s.run changes).all.get? key = some v ↔
      IsSetSinceReading key v changes ∨ IsInLastFiles key v changes := by
  have hfiles := fromFiles_of_load? hload
  constructor
  · intro h
    rcases lastReading_cases changes with
      hnone | ⟨before, user, project, after, rfl, hreading, hreads⟩
    · exact .inl ⟨[], changes, rfl, hnone, hlatest⟩
    · refine (isSetSinceReading_or hreads hlatest).imp_right fun hafter => ?_
      rw [get?_run_of_reads hfiles hproper hreading hreads hafter] at h
      exact ⟨before, user, project, after, rfl, hreading, hreads, h⟩
  · rintro (hset | ⟨before, user, project, after, rfl, hreading, hreads, hget⟩)
    · exact hset.get?_run hfiles hproper hfields
    · rcases isSetSinceReading_or hreads hlatest with hset | hafter
      · exact hset.get?_run hfiles hproper hfields
      · rw [get?_run_of_reads hfiles hproper hreading hreads hafter, hget]

/-- A number is set, the files are read with another, it is set again with a null beside it, and
then a file cannot be read. -/
theorem get?_run_iff_set_again :
    let s : Settings := ⟨true, [], [], none⟩
    let key := "historySize".toList
    let project := FileContent.bytes (Utf8.encode "\x7b\"historySize\": 7\x7d".toList)
    let changes : List Change := [.override [(key, .int 20)], .reload .missing project,
      .override [("wordChars".toList, .null), (key, .int 30)], .reload .missing (.bytes [0xff])]
    load? .missing .missing = .ok s ∧ (∀ c ∈ changes, c.IsProper) ∧
      latest? key changes = some (.int 30) ∧ (s.run changes).all.get? key = some (.int 30) := by
  intro s key project changes
  have hfirst : (Json.obj [(key, .int 20)]).HasDistinctKeys :=
    .flat (by decide) (by decide)
  have hagain : (Json.obj [("wordChars".toList, .null), (key, .int 30)]).HasDistinctKeys :=
    .flat (by decide) (by decide)
  have hproper : ∀ c ∈ changes, c.IsProper := by
    simp only [changes, List.forall_mem_cons]
    exact ⟨hfirst, trivial, hagain, trivial, nofun⟩
  have hload : load? .missing .missing = .ok s := rfl
  have hbytes : FileContent.IsUnreadable (.bytes [0xff]) := ⟨_, .invalidUtf8 (by decide +kernel)⟩
  have hreads : ∀ c ∈ [Change.override [("wordChars".toList, .null), (key, .int 30)],
      .reload .missing (.bytes [0xff])], ¬c.Reads := by
    simp only [List.forall_mem_cons]
    exact ⟨id, fun h => h.2 hbytes, nofun⟩
  have hset : IsSetSinceReading key (.int 30) changes :=
    ⟨[_, _], [_, _], rfl, hreads, rfl⟩
  have hlatest : latest? key changes = some (.int 30) := rfl
  exact ⟨hload, hproper, hlatest, (get?_run_iff hload hproper hlatest rfl).2 (.inl hset)⟩

/-- Overrides do not go before the files for good: reading these again forgets them. -/
theorem not_forall_get?_run :
    ¬ ∀ (user project : FileContent) (s : Settings) (changes : List Change) (key : List Char)
      (v : Json), load? user project = .ok s → (∀ c ∈ changes, c.IsProper) →
      latest? key changes = some v → v.fields? = none → (s.run changes).all.get? key = some v := by
  intro h
  have hfirst : (Json.obj [("historySize".toList, .int 20)]).HasDistinctKeys :=
    .flat (by decide) (by decide)
  have hproper : ∀ c ∈ [Change.override [("historySize".toList, .int 20)],
      .reload .missing .missing], c.IsProper := by
    simp only [List.forall_mem_cons]
    exact ⟨hfirst, trivial, nofun⟩
  have hkept := h .missing .missing _ _ "historySize".toList (.int 20) rfl hproper rfl rfl
  cases hkept

end ShellLine.Settings
