import Mathlib.Tactic.SplitIfs
import ShellLine.Proofs.Json.Paths
import ShellLine.Settings

/-!
# Proofs/Settings/Reading — what two files make of settings

A file counts as the object whose text it holds, and as no settings at all where it is missing or
bad (`FileContent.counted`, `FileContent.IsBad`).  `Settings.Reflects` says that settings show just
what two files count as.

Reading does not get that far where a file is no UTF-8, or where a whole number of too many digits
is met in it (`FileContent.StopsWith`).  These are the only causes, both for the first reading and
for each later one, and otherwise settings reflect their files (`Settings.load_and_reload`).

Escapes of half a surrogate pair are read as `Json/Parse` says, so of files that hold one alone all
this is said up to U+FFFD.
-/

namespace ShellLine

/-! ## One file -/

namespace FileContent

/-- The object of JSON whose UTF-8 text a file holds. -/
def object? : FileContent → Option (Fields Json)
  | .bytes data => do
    let text ← Utf8.decode? data
    let value ← (Json.parse text).toOption
    value.fields?
  | _ => none

/-- The settings that a file counts as: those of its object, or none. -/
def counted (file : FileContent) : Fields Json := file.object?.getD []

/-- The file is there, and holds the text of no object. -/
def IsBad (file : FileContent) : Prop := file ≠ .missing ∧ file.object? = none

/-- What stops the reading of a file. -/
inductive StopsWith : FileContent → Unreadable → Prop
  | invalidUtf8 {data : List UInt8} (h : Utf8.decode? data = none) :
      StopsWith (.bytes data) .invalidUtf8
  | tooManyDigits {data : List UInt8} {text : List Char} {count : Nat}
      (htext : Utf8.decode? data = some text)
      (h : Json.parse text = .error (.tooManyDigits count)) :
      StopsWith (.bytes data) (.tooManyDigits count)

/-- Something stops the reading of the file. -/
def IsUnreadable (file : FileContent) : Prop := ∃ e, file.StopsWith e

variable {file : FileContent}

theorem object?_of_decode? {data : List UInt8} {text : List Char}
    (h : Utf8.decode? data = some text) :
    (bytes data).object? = (Json.parse text).toOption.bind Json.fields? := by
  rw [object?, h]
  rfl

theorem object?_eq_some_iff {fields : Fields Json} :
    file.object? = some fields ↔ ∃ data text, file = .bytes data ∧ Utf8.decode? data = some text ∧
      Json.parse text = .ok (.obj fields) := by
  constructor
  · intro h
    cases file with
    | bytes data =>
      obtain ⟨text, hdecode, -⟩ := Option.bind_eq_some_iff.1 h
      rw [object?_of_decode? hdecode] at h
      refine ⟨data, text, rfl, hdecode, ?_⟩
      cases hparse : Json.parse text with
      | error e =>
        rw [hparse] at h
        cases h
      | ok v =>
        rw [hparse] at h
        rw [Json.eq_obj_of_fields? h]
    | _ => cases h
  · rintro ⟨data, text, rfl, hdecode, hparse⟩
    rw [object?_of_decode? hdecode, hparse]
    rfl

theorem hasDistinctKeys_counted (file : FileContent) :
    (Json.obj file.counted).HasDistinctKeys := by
  cases hobject : file.object? with
  | none =>
    rw [counted, hobject]
    exact .object List.nodup_nil nofun
  | some fields =>
    obtain ⟨_, _, -, -, hparse⟩ := object?_eq_some_iff.1 hobject
    rw [counted, hobject, Option.getD_some]
    exact Json.hasDistinctKeys_of_parse hparse

end FileContent

namespace Settings

variable {file user project : FileContent} {s : Settings}

theorem readFile?_eq_error_iff {e : Unreadable} :
    readFile? file = .error e ↔ file.StopsWith e := by
  constructor
  · intro h
    cases file with
    | bytes data =>
      rw [readFile?] at h
      split at h
      next hdecode =>
        cases h
        exact .invalidUtf8 hdecode
      next text hdecode =>
        split at h
        next => cases h
        next count hparse =>
          cases h
          exact .tooManyDigits hdecode hparse
        next => cases h
        next => cases h
    | _ => cases h
  · rintro (h | ⟨htext, h⟩)
    · rw [readFile?, h]
    · rw [readFile?, htext]
      dsimp only
      rw [h]

theorem readFile?_of_object? {fields : Fields Json} (h : file.object? = some fields) :
    readFile? file = .ok (fields, none) := by
  obtain ⟨data, text, rfl, hdecode, hparse⟩ := FileContent.object?_eq_some_iff.1 h
  rw [readFile?, hdecode]
  dsimp only
  rw [hparse]

theorem readFile?_of_object?_eq_none {data : List UInt8}
    (h : (FileContent.bytes data).object? = none)
    (hread : ¬(FileContent.bytes data).IsUnreadable) :
    ∃ e, readFile? (.bytes data) = .ok ([], some e) := by
  rw [readFile?]
  split
  next hdecode => exact absurd ⟨_, .invalidUtf8 hdecode⟩ hread
  next text hdecode =>
    rw [FileContent.object?_of_decode? hdecode] at h
    split
    next => exact ⟨_, rfl⟩
    next count hparse => exact absurd ⟨_, .tooManyDigits hdecode hparse⟩ hread
    next fields hparse =>
      rw [hparse] at h
      cases h
    next => exact ⟨_, rfl⟩

/-- **A file whose reading is not stopped** gives what it counts as, and an error just if it is bad.
-/
theorem readFile?_of_not_isUnreadable (h : ¬file.IsUnreadable) :
    ∃ error?, readFile? file = .ok (file.counted, error?) ∧ (error?.isSome ↔ file.IsBad) := by
  cases hobject : file.object? with
  | some fields =>
    rw [FileContent.counted, FileContent.IsBad, hobject]
    exact ⟨none, readFile?_of_object? hobject, iff_of_false Bool.false_ne_true nofun⟩
  | none =>
    rw [FileContent.counted, FileContent.IsBad, hobject]
    cases file with
    | missing => exact ⟨none, rfl, iff_of_false Bool.false_ne_true fun hbad => hbad.1 rfl⟩
    | directory => exact ⟨some .isDirectory, rfl, iff_of_true rfl ⟨nofun, rfl⟩⟩
    | bytes data =>
      obtain ⟨e, he⟩ := readFile?_of_object?_eq_none hobject h
      exact ⟨some e, he, iff_of_true rfl ⟨nofun, rfl⟩⟩

/-! ## Two files -/

/-- What settings show of the files of the user and of the project: the settings of both, the second
over the first, and whether the file of the user is bad. -/
structure Reflects (s : Settings) (user project : FileContent) : Prop where
  user_eq : s.user = user.counted
  all_eq : s.all = Json.mergeFields user.counted project.counted
  loadError_iff : s.loadError?.isSome ↔ user.IsBad

/-- Once the file of the user is read, the outcome is that of the file of the project. -/
theorem reload_of_readFile? {fields : Fields Json} {error? : Option LoadError}
    (hfiles : s.fromFiles = true) (h : readFile? user = .ok (fields, error?)) :
    (∀ r, readFile? project = .ok r → s.reload user project =
        ({ s with
            user := fields
            all := Json.mergeFields fields r.1
            loadError? := error? }, none)) ∧
      ∀ e, readFile? project = .error e → s.reload user project =
        ({ s with
            user := fields
            loadError? := error? }, some e) := by
  rw [reload, reloadUser?, if_pos hfiles, h]
  dsimp only [Except.map]
  rw [mergeProject?, projectSettings?, if_pos hfiles]
  refine ⟨fun r hr => ?_, fun e he => ?_⟩
  · rw [hr]
    rfl
  · rw [he]
    rfl

/-- **Reading again** shows the files, if nothing stops the reading of either. -/
theorem reflects_reload (hfiles : s.fromFiles = true) (huser : ¬user.IsUnreadable)
    (hproject : ¬project.IsUnreadable) :
    (s.reload user project).2 = none ∧ (s.reload user project).1.Reflects user project := by
  obtain ⟨error?, hreaduser, herror⟩ := readFile?_of_not_isUnreadable huser
  obtain ⟨_, hreadproject, -⟩ := readFile?_of_not_isUnreadable hproject
  rw [(reload_of_readFile? hfiles hreaduser).1 _ hreadproject]
  exact ⟨rfl, rfl, rfl, herror⟩

/-- **A reading that is stopped** changes none of the settings that are shown. -/
theorem reload_of_isUnreadable (hfiles : s.fromFiles = true)
    (h : user.IsUnreadable ∨ project.IsUnreadable) :
    (s.reload user project).2.isSome ∧ (s.reload user project).1.all = s.all := by
  by_cases huser : user.IsUnreadable
  · obtain ⟨e, he⟩ := huser
    rw [reload, reloadUser?, if_pos hfiles, readFile?_eq_error_iff.2 he]
    exact ⟨rfl, rfl⟩
  · obtain ⟨error?, hreaduser, -⟩ := readFile?_of_not_isUnreadable huser
    obtain ⟨e, he⟩ := h.resolve_left huser
    rw [(reload_of_readFile? hfiles hreaduser).2 e (readFile?_eq_error_iff.2 he)]
    exact ⟨rfl, rfl⟩

theorem isSome_reload_iff (hfiles : s.fromFiles = true) :
    (s.reload user project).2.isSome ↔ user.IsUnreadable ∨ project.IsUnreadable := by
  by_cases h : user.IsUnreadable ∨ project.IsUnreadable
  · exact iff_of_true (reload_of_isUnreadable hfiles h).1 h
  · obtain ⟨huser, hproject⟩ := not_or.1 h
    rw [(reflects_reload hfiles huser hproject).1]
    exact iff_of_false Bool.false_ne_true h

theorem reflects_of_reload (hfiles : s.fromFiles = true) (h : (s.reload user project).2 = none) :
    (s.reload user project).1.Reflects user project := by
  have hread : ¬(user.IsUnreadable ∨ project.IsUnreadable) := by
    rw [← isSome_reload_iff hfiles, h]
    exact Bool.false_ne_true
  obtain ⟨huser, hproject⟩ := not_or.1 hread
  exact (reflects_reload hfiles huser hproject).2

/-! ## Changes -/

/-- What can happen to settings: overrides are put over them, or the files are read again. -/
inductive Change
  | override (fields : Fields Json)
  | reload (user project : FileContent)

/-- Settings after a change. -/
def step (s : Settings) : Change → Settings
  | .override fields => s.override fields
  | .reload user project => (s.reload user project).1

/-- Settings after some changes, one after the other. -/
def run (s : Settings) (changes : List Change) : Settings := changes.foldl step s

theorem run_append (s : Settings) (before after : List Change) :
    s.run (before ++ after) = (s.run before).run after :=
  List.foldl_append

@[simp] theorem fromFiles_reload (s : Settings) (user project : FileContent) :
    (s.reload user project).1.fromFiles = s.fromFiles := by
  have huser : ∀ s', s.reloadUser? user = .ok s' → s'.fromFiles = s.fromFiles := by
    intro s' h
    rw [reloadUser?] at h
    split_ifs at h
    · obtain ⟨_, -, rfl⟩ := exists_of_map_eq_ok h
      rfl
    · cases h
      rfl
  rw [reload]
  split
  next => rfl
  next s' hs' =>
    split
    next => exact huser s' hs'
    next s'' hs'' =>
      obtain ⟨_, -, rfl⟩ := exists_of_map_eq_ok hs''
      exact huser s' hs'

@[simp] theorem fromFiles_step (s : Settings) (c : Change) :
    (s.step c).fromFiles = s.fromFiles := by
  cases c with
  | override fields => rfl
  | reload user project => exact fromFiles_reload s user project

@[simp] theorem fromFiles_run (s : Settings) (changes : List Change) :
    (s.run changes).fromFiles = s.fromFiles := by
  induction changes generalizing s with
  | nil => rfl
  | cons c changes ih => exact (ih (s.step c)).trans (fromFiles_step s c)

/-! ## Settings from files -/

/-- The settings that files are first read into. -/
def unread : Settings := ⟨true, [], [], none⟩

theorem load?_eq_ok_iff :
    load? user project = .ok s ↔ unread.reload user project = (s, none) := by
  rw [load?, ← unread]
  split
  next s' h => rw [h, Except.ok.injEq, Prod.mk.injEq, and_iff_left rfl]
  next s' e h =>
    rw [h]
    exact iff_of_false nofun nofun

theorem exists_load?_eq_error_iff :
    (∃ e, load? user project = .error e) ↔ user.IsUnreadable ∨ project.IsUnreadable := by
  have hunread : unread.fromFiles = true := rfl
  rw [← isSome_reload_iff hunread, load?, ← unread]
  split
  next s h =>
    rw [h]
    exact iff_of_false nofun Bool.false_ne_true
  next s e h =>
    rw [h]
    exact iff_of_true ⟨e, rfl⟩ rfl

theorem fromFiles_of_load? (h : load? user project = .ok s) : s.fromFiles = true := by
  have hfiles := fromFiles_reload unread user project
  rw [load?_eq_ok_iff.1 h] at hfiles
  exact hfiles

theorem reflects_of_load? (h : load? user project = .ok s) : s.Reflects user project := by
  have hread := load?_eq_ok_iff.1 h
  have hreflects : (unread.reload user project).1.Reflects user project :=
    reflects_of_reload rfl (by rw [hread])
  rwa [hread] at hreflects

/-- **Settings show their files, or reading them is stopped.**  The first reading, and each later
one after any changes, is stopped exactly if a file is no UTF-8, or has a whole number of too many
digits; otherwise the settings show what the two files count as, and an error just if that of the
user is bad. -/
theorem load_and_reload (user project : FileContent) :
    ((∃ e, load? user project = .error e) ↔ user.IsUnreadable ∨ project.IsUnreadable) ∧
      ∀ s, load? user project = .ok s → s.Reflects user project ∧
        ∀ changes user' project', let later := (s.run changes).reload user' project'
          (later.2.isSome ↔ user'.IsUnreadable ∨ project'.IsUnreadable) ∧
            (later.2 = none → later.1.Reflects user' project') := by
  refine ⟨exists_load?_eq_error_iff, fun s hload => ⟨reflects_of_load? hload, ?_⟩⟩
  intro changes user' project'
  have hfiles : (s.run changes).fromFiles = true := by
    rw [fromFiles_run, fromFiles_of_load? hload]
  exact ⟨isSome_reload_iff hfiles, reflects_of_reload hfiles⟩

/-- The file of the user holds a list and that of the project an object; later that of the project is
no UTF-8. -/
theorem load_and_reload_list :
    let user := FileContent.bytes (Utf8.encode "[1]".toList)
    let project := FileContent.bytes (Utf8.encode "\x7b\"historySize\": 7\x7d".toList)
    ∃ s, load? user project = .ok s ∧ s.Reflects user project ∧ s.loadError?.isSome ∧
      (s.reload .missing (.bytes [0xff])).2.isSome := by
  intro user project
  have hok : (load? user project).isOk := by decide +kernel
  obtain ⟨s, hload⟩ : ∃ s, load? user project = .ok s := by
    cases hload : load? user project with
    | error e =>
      rw [hload] at hok
      cases hok
    | ok s => exact ⟨s, rfl⟩
  have hbad : user.IsBad := ⟨nofun, Option.isNone_iff_eq_none.1 (by decide +kernel)⟩
  have hbytes : FileContent.IsUnreadable (.bytes [0xff]) := ⟨_, .invalidUtf8 (by decide +kernel)⟩
  obtain ⟨hreflects, hlater⟩ := (load_and_reload user project).2 s hload
  exact ⟨s, hload, hreflects, hreflects.loadError_iff.2 hbad,
    (hlater [] .missing (.bytes [0xff])).1.2 (.inr hbytes)⟩

/-- Not all files can be read: one byte that is no UTF-8 stops the first reading. -/
theorem not_forall_exists_load?_eq_ok :
    ¬ ∀ user project : FileContent, ∃ s, load? user project = .ok s := by
  intro h
  obtain ⟨s, hs⟩ := h (.bytes [0xff]) .missing
  have hbytes : FileContent.IsUnreadable (.bytes [0xff]) := ⟨_, .invalidUtf8 (by decide +kernel)⟩
  obtain ⟨e, he⟩ := exists_load?_eq_error_iff.2 (.inl hbytes)
  rw [hs] at he
  cases he

end Settings

end ShellLine
