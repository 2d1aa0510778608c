import Mathlib.Data.List.Basic
import ShellLine.Json.Merge
import ShellLine.Proofs.Json.Paths

/-!
# Proofs/Json/Merge — what a merge holds, path by path

A merge holds, at each path at which the overrides say something, what they say there over what the
base holds there (`Json.follow?_merge`); a place on which they are silent is left as it was
(`Json.follow?_merge_of_silent`).  From the two come the laws of merging (`Json.merge_laws`):
overrides go first, nothing else is lost, and merging the same overrides again changes nothing.
-/

namespace ShellLine.Json

variable {v w : Json} {base fields overrides : Fields Json} {key : List Char}
  {path : List (List Char)}

/-! ## One value over another -/

/-- Two objects are merged, and any other value is taken as it is. -/
theorem mergeValue_cases (old : Option Json) (v : Json) :
    ((old.bind Json.fields? = none ∨ v.fields? = none) ∧ mergeValue old v = v) ∨
      ∃ base fields, old = some (obj base) ∧ v = obj fields ∧
        mergeValue old v = obj (mergeFields base fields) := by
  cases hv : v.fields? with
  | none =>
    refine .inl ⟨.inr rfl, ?_⟩
    cases v with
    | obj fields => cases hv
    | _ => rfl
  | some fields =>
    obtain rfl := eq_obj_of_fields? hv
    match old with
    | some (.obj base) => exact .inr ⟨base, fields, rfl, rfl, rfl⟩
    | none | some .null | some (.bool _) | some (.int _) | some (.double _) | some (.str _)
    | some (.arr _) => exact .inl ⟨.inl rfl, rfl⟩

theorem mergeValue_obj (base fields : Fields Json) :
    mergeValue (some (obj base)) (obj fields) = obj (mergeFields base fields) := rfl

theorem mergeValue_of_fields? (old : Option Json) (h : v.fields? = none) :
    mergeValue old v = v := by
  rcases mergeValue_cases old v with ⟨-, heq⟩ | ⟨_, _, -, rfl, -⟩
  · exact heq
  · cases h

theorem mergeValue_of_bind_fields? {old : Option Json} (h : old.bind Json.fields? = none)
    (v : Json) : mergeValue old v = v := by
  rcases mergeValue_cases old v with ⟨-, heq⟩ | ⟨_, _, rfl, -, -⟩
  · exact heq
  · cases h

/-- **A merge of objects is an object**: no key stands twice in it. -/
theorem hasDistinctKeys_mergeValue (hv : v.HasDistinctKeys) (old : Option Json)
    (hold : ∀ w ∈ old, w.HasDistinctKeys) : (mergeValue old v).HasDistinctKeys := by
  induction hv generalizing old with
  | other h =>
    rw [mergeValue_of_fields? old h]
    exact .other h
  | @object fields hkeys hvalues ih =>
    rcases mergeValue_cases old (obj fields) with ⟨-, htaken⟩ | ⟨base, _, rfl, hfields, hmerged⟩
    · rw [htaken]
      exact .object hkeys hvalues
    · cases hfields
      rw [hmerged]
      have hbase := hold _ rfl
      clear hold hmerged hkeys
      induction fields generalizing base with
      | nil => exact hbase
      | cons e fields ihfields =>
        obtain ⟨hvalue, hvalues⟩ := List.forall_mem_cons.1 hvalues
        obtain ⟨ihvalue, ih⟩ := List.forall_mem_cons.1 ih
        rw [mergeFields]
        split_ifs
        · exact ihfields hvalues ih base hbase
        · refine ihfields hvalues ih _ (hbase.put (ihvalue _ fun w hw => ?_))
          exact hbase.of_get? hw

theorem HasDistinctKeys.merge (hover : (obj overrides).HasDistinctKeys)
    (hbase : (obj base).HasDistinctKeys) : (obj (mergeFields base overrides)).HasDistinctKeys := by
  rw [← mergeValue_obj]
  refine hasDistinctKeys_mergeValue hover _ fun w hw => ?_
  cases hw
  exact hbase

/-! ## One key -/

/-- What some fields say on a key: its value, unless that is null. -/
def said? (key : List Char) (fields : Fields Json) : Option Json :=
  (fields.get? key).filter fun v => !v.isNull

theorem said?_eq_some_iff :
    said? key fields = some v ↔ fields.get? key = some v ∧ v.isNull = false := by
  rw [said?, Option.filter_eq_some_iff, Bool.not_eq_true']

theorem said?_eq_none_iff :
    said? key fields = none ↔ fields.get? key = none ∨ fields.get? key = some .null := by
  rw [said?]
  cases fields.get? key with
  | none => exact iff_of_true rfl (.inl rfl)
  | some v => cases v <;> simp [isNull]

theorem said?_cons_self (key : List Char) (v : Json) (fields : Fields Json) :
    said? key ((key, v) :: fields) = if v.isNull then none else some v := by
  rw [said?, Fields.get?, if_pos rfl, Option.filter_some]
  cases v.isNull <;> rfl

theorem said?_cons_of_ne {k : List Char} (h : k ≠ key) (v : Json) (fields : Fields Json) :
    said? key ((k, v) :: fields) = said? key fields := by
  rw [said?, Fields.get?, if_neg h, said?]

theorem said?_of_not_mem (h : key ∉ fields.keys) : said? key fields = none :=
  said?_eq_none_iff.2 (.inl (Fields.get?_eq_none_iff.2 h))

/-- **A merge holds under a key** what the overrides say on it over what the base holds there, or
else what the base holds there. -/
theorem get?_mergeFields (base : Fields Json) (hkeys : overrides.keys.Nodup) (key : List Char) :
    (mergeFields base overrides).get? key =
      ((said? key overrides).map (mergeValue (base.get? key))).or (base.get? key) := by
  induction overrides generalizing base with
  | nil => rfl
  | cons e overrides ih =>
    obtain ⟨k, v⟩ := e
    rw [Fields.keys, List.map_cons, List.nodup_cons] at hkeys
    obtain ⟨hk, hkeys⟩ := hkeys
    rw [mergeFields]
    by_cases hkey : k = key
    · subst hkey
      rw [said?_cons_self]
      split_ifs with hv
      · rw [ih base hkeys, said?_of_not_mem hk]
      · rw [ih _ hkeys, said?_of_not_mem hk, Fields.get?_put, if_pos rfl]
        rfl
    · rw [said?_cons_of_ne hkey]
      split_ifs with hv
      · exact ih base hkeys
      · rw [ih _ hkeys, Fields.get?_put, if_neg hkey]

theorem get?_mergeFields_of_silent (base : Fields Json) (hkeys : overrides.keys.Nodup)
    (h : said? key overrides = none) : (mergeFields base overrides).get? key = base.get? key := by
  rw [get?_mergeFields base hkeys, h]
  rfl

theorem get?_mergeFields_of_said (base : Fields Json) (hkeys : overrides.keys.Nodup)
    (h : said? key overrides = some v) :
    (mergeFields base overrides).get? key = some (mergeValue (base.get? key) v) := by
  rw [get?_mergeFields base hkeys, h]
  rfl

/-! ## A path of keys -/

/-- A path through what is no object leads to no object. -/
theorem bind_fields?_of_bind_follow? {old : Option Json} (h : old.bind Json.fields? = none)
    (path : List (List Char)) :
    (old.bind fun w => w.follow? path).bind Json.fields? = none := by
  cases old with
  | none => rfl
  | some old =>
    cases path with
    | nil => exact h
    | cons key path =>
      rw [Option.bind_some, follow?_cons_of_fields? h]
      rfl

/-- **A merge holds at a path** at which the overrides say something what they say there, over what
the base holds there. -/
theorem follow?_merge (hdistinct : (obj overrides).HasDistinctKeys)
    (h : (obj overrides).follow? path = some w) (hw : w.isNull = false) :
    (obj (mergeFields base overrides)).follow? path =
      some (mergeValue ((obj base).follow? path) w) := by
  induction path generalizing base overrides with
  | nil =>
    rw [follow?_nil] at h
    cases h
    rfl
  | cons key path ih =>
    rw [follow?_obj_cons] at h
    obtain ⟨v, hget, hv⟩ := Option.bind_eq_some_iff.1 h
    have hnull : v.isNull = false := by
      cases path with
      | nil =>
        cases (follow?_nil v).symm.trans hv
        exact hw
      | cons =>
        obtain ⟨_, rfl⟩ := exists_fields_of_follow?_cons hv
        rfl
    have hsaid : said? key overrides = some v := said?_eq_some_iff.2 ⟨hget, hnull⟩
    rw [follow?_obj_cons, follow?_obj_cons,
      get?_mergeFields_of_said base hdistinct.nodup_keys hsaid, Option.bind_some]
    rcases mergeValue_cases (base.get? key) v with
      ⟨hold | hfields, htaken⟩ | ⟨inner, fields, hold, rfl, hmerged⟩
    · rw [htaken, hv, mergeValue_of_bind_fields? (bind_fields?_of_bind_follow? hold path)]
    · cases path with
      | nil =>
        cases (follow?_nil v).symm.trans hv
        rw [htaken, follow?_nil, mergeValue_of_fields? _ hfields]
      | cons => cases (follow?_cons_of_fields? hfields).symm.trans hv
    · rw [hmerged, hold]
      exact ih (hdistinct.of_get? hget) hv

/-- **A place on which the overrides are silent** is left as it was, with all that is behind it. -/
theorem follow?_merge_of_silent {inner : Fields Json} (hdistinct : (obj overrides).HasDistinctKeys)
    (hover : (obj overrides).follow? path = some (obj fields)) (hsilent : said? key fields = none)
    (hbase : (obj base).follow? path = some (obj inner)) (rest : List (List Char)) :
    (obj (mergeFields base overrides)).follow? (path ++ key :: rest) =
      (obj base).follow? (path ++ key :: rest) := by
  have hkeys : fields.keys.Nodup := (hdistinct.of_follow? hover).nodup_keys
  rw [follow?_append, follow?_append, follow?_merge hdistinct hover rfl, hbase, mergeValue_obj,
    Option.bind_some, Option.bind_some, follow?_obj_cons, follow?_obj_cons,
    get?_mergeFields_of_silent inner hkeys hsilent]

/-! ## Merging again -/

/-- Fields that hold all that some others say do not change when these are merged over them. -/
theorem mergeFields_eq_self {merged : Fields Json}
    (h : ∀ e ∈ overrides, e.2.isNull = false →
      ∃ w, merged.get? e.1 = some w ∧ mergeValue (some w) e.2 = w) :
    mergeFields merged overrides = merged := by
  induction overrides with
  | nil => rfl
  | cons e overrides ih =>
    obtain ⟨k, v⟩ := e
    obtain ⟨hfirst, hrest⟩ := List.forall_mem_cons.1 h
    rw [mergeFields]
    split_ifs with hv
    · exact ih hrest
    · obtain ⟨w, hget, hw⟩ := hfirst (Bool.eq_false_iff.2 hv)
      dsimp only at hget hw
      rw [hget, hw, Fields.put_of_get? hget]
      exact ih hrest

/-- A value over what came of itself changes nothing. -/
theorem mergeValue_mergeValue (hv : v.HasDistinctKeys) (old : Option Json) :
    mergeValue (some (mergeValue old v)) v = mergeValue old v := by
  induction hv generalizing old with
  | other h => rw [mergeValue_of_fields? _ h, mergeValue_of_fields? _ h]
  | @object fields hkeys hvalues ih =>
    rcases mergeValue_cases old (obj fields) with ⟨-, htaken⟩ | ⟨base, _, rfl, hfields, -⟩
    · -- an object over itself: each of its values meets itself
      rw [htaken, mergeValue_obj]
      refine congrArg obj (mergeFields_eq_self fun e he _ => ?_)
      have htaken : mergeValue none e.2 = e.2 := mergeValue_of_bind_fields? rfl e.2
      have hself := ih e he none
      rw [htaken] at hself
      exact ⟨e.2, Fields.get?_of_mem hkeys he, hself⟩
    · cases hfields
      rw [mergeValue_obj, mergeValue_obj]
      refine congrArg obj (mergeFields_eq_self fun e he hnull => ?_)
      have hsaid : said? e.1 fields = some e.2 :=
        said?_eq_some_iff.2 ⟨Fields.get?_of_mem hkeys he, hnull⟩
      exact ⟨_, get?_mergeFields_of_said base hkeys hsaid, ih e he _⟩

theorem isNull_eq_false_iff : v.isNull = false ↔ v ≠ .null := by
  cases v <;> simp [isNull]

/-- **The laws of merging.**  A value of the overrides that is neither null nor an object is found
at its path, a value of the base is kept where the overrides are silent about it or about what it is
in, and merging the same overrides again changes nothing. -/
theorem merge_laws (base : Fields Json) (hdistinct : (obj overrides).HasDistinctKeys) :
    let merged := mergeFields base overrides
    (∀ path v, (obj overrides).follow? path = some v → v ≠ .null → v.fields? = none →
        (obj merged).follow? path = some v) ∧
      (∀ path key rest fields v, (obj base).follow? (path ++ key :: rest) = some v →
        (obj overrides).follow? path = some (obj fields) →
        (Fields.get? key fields = none ∨ Fields.get? key fields = some .null) →
        (obj merged).follow? (path ++ key :: rest) = some v) ∧
      mergeFields merged overrides = merged := by
  intro merged
  refine ⟨fun path v h hnull hfields => ?_, fun path key rest fields v hv hover hsilent => ?_, ?_⟩
  · rw [follow?_merge hdistinct h (isNull_eq_false_iff.2 hnull), mergeValue_of_fields? _ hfields]
  · have hbase := hv
    rw [follow?_append] at hbase
    obtain ⟨w, hw, hrest⟩ := Option.bind_eq_some_iff.1 hbase
    obtain ⟨inner, rfl⟩ := exists_fields_of_follow?_cons hrest
    rw [follow?_merge_of_silent hdistinct hover (said?_eq_none_iff.2 hsilent) hw, hv]
  · have hagain := mergeValue_mergeValue hdistinct (some (obj base))
    rw [mergeValue_obj, mergeValue_obj] at hagain
    exact obj.inj hagain

/-- A key and the number of lines are set over others, and null is said of a second key. -/
theorem merge_laws_bindings :
    let base : Fields Json := [("historySize".toList, .int 5),
      ("keybindings".toList, .obj [("submit".toList, .str "ctrl+j".toList)])]
    let overrides : Fields Json := [("keybindings".toList, .obj [("submit".toList, .null),
      ("exit".toList, .str "ctrl+q".toList)]), ("historySize".toList, .int 7)]
    let merged := mergeFields base overrides
    (obj overrides).HasDistinctKeys ∧
      (obj merged).follow? ["keybindings".toList, "exit".toList] = some (.str "ctrl+q".toList) ∧
      (obj merged).follow? ["keybindings".toList, "submit".toList] =
        some (.str "ctrl+j".toList) ∧
      mergeFields merged overrides = merged := by
  intro base overrides merged
  have hbindings : (obj [("submit".toList, .null),
      ("exit".toList, .str "ctrl+q".toList)]).HasDistinctKeys :=
    .flat (by decide) (by decide)
  have hdistinct : (obj overrides).HasDistinctKeys :=
    .object (by decide)
      (List.forall_mem_cons.2 ⟨hbindings, List.forall_mem_singleton.2 (.other rfl)⟩)
  obtain ⟨hover, hbase, hagain⟩ := merge_laws base hdistinct
  exact ⟨hdistinct, hover _ _ rfl nofun rfl, hbase [_] _ [] _ _ rfl rfl (.inr rfl), hagain⟩

end ShellLine.Json
