import ShellLine.Proofs.Json.Merge

/-!
# Proofs/Json/Nulls — where a merge lets a null in

A null in overrides says nothing, so the place that it stands for is left as it was: but only where
the merge goes.  An object that meets no object of the base is taken as it is, with its nulls
(`Json.null_of_merge`).  `Json.isNullFree_merge_iff` says exactly when a merge with settings that
have no null has none.
-/

namespace ShellLine.Json

variable {v : Json} {base fields overrides : Fields Json} {key : List Char}
  {path : List (List Char)}

/-- No path leads to null. -/
def IsNullFree (v : Json) : Prop := ∀ path, v.follow? path ≠ some .null

theorem IsNullFree.of_get? (h : (obj fields).IsNullFree) (hv : fields.get? key = some v) :
    v.IsNullFree := by
  intro path hpath
  refine h (key :: path) ?_
  rw [follow?_obj_cons, hv, Option.bind_some, hpath]

theorem isNullFree_of_fields? (h : v.fields? = none) (hv : v ≠ .null) : v.IsNullFree
  | [], hpath => hv (Option.some.inj ((follow?_nil v).symm.trans hpath))
  | _ :: _, hpath => by cases (follow?_cons_of_fields? h).symm.trans hpath

theorem isNullFree_obj (h : ∀ e ∈ fields, e.2.IsNullFree) : (obj fields).IsNullFree
  | [], hpath => by cases hpath
  | key :: path, hpath => by
      obtain ⟨v, hget, hv⟩ := Option.bind_eq_some_iff.1 hpath
      exact h _ (Fields.mem_of_get? hget) path hv

/-- A null stands under a key of an object. -/
theorem exists_fields_of_null (h : (obj fields).follow? path = some .null) :
    ∃ (front : List (List Char)) (key : List Char) (inner : Fields Json), path = front ++ [key] ∧
      (obj fields).follow? front = some (obj inner) ∧ inner.get? key = some .null := by
  rcases List.eq_nil_or_concat path with rfl | ⟨front, key, rfl⟩
  · cases h
  · rw [List.concat_eq_append] at h ⊢
    rw [follow?_append] at h
    obtain ⟨w, hw, hkey⟩ := Option.bind_eq_some_iff.1 h
    obtain ⟨inner, rfl⟩ := exists_fields_of_follow?_cons hkey
    refine ⟨front, key, inner, rfl, hw, ?_⟩
    simpa only [follow?_obj_cons, follow?_nil, Option.bind_fun_some] using hkey

/-- A null of a merge is one of the overrides, in an object that met none of the base. -/
theorem null_of_merge (hbase : (obj base).IsNullFree) (hdistinct : (obj overrides).HasDistinctKeys)
    (h : (obj (mergeFields base overrides)).follow? path = some .null) :
    (obj overrides).follow? path = some .null ∧
      ∀ inner, (obj base).follow? path.dropLast ≠ some (obj inner) := by
  induction path generalizing base overrides with
  | nil => cases h
  | cons key path ih =>
    rw [follow?_obj_cons] at h ⊢
    cases hsaid : said? key overrides with
    | none =>
      rw [get?_mergeFields_of_silent base hdistinct.nodup_keys hsaid, ← follow?_obj_cons] at h
      exact absurd h (hbase (key :: path))
    | some v =>
      obtain ⟨hget, hnull⟩ := said?_eq_some_iff.1 hsaid
      rw [get?_mergeFields_of_said base hdistinct.nodup_keys hsaid, Option.bind_some] at h
      rw [hget, Option.bind_some]
      cases path with
      | nil =>
        rcases mergeValue_cases (base.get? key) v with ⟨-, htaken⟩ | ⟨_, _, -, -, hmerged⟩
        · rw [htaken, follow?_nil] at h
          cases h
          cases hnull
        · rw [hmerged] at h
          cases h
      | cons key' path =>
        rw [List.dropLast_cons_cons, follow?_obj_cons]
        rcases mergeValue_cases (base.get? key) v with
          ⟨hold | hfields, htaken⟩ | ⟨inner, fields, hold, rfl, hmerged⟩
        · rw [htaken] at h
          refine ⟨h, fun inner hinner => ?_⟩
          have hnone := bind_fields?_of_bind_follow? hold (key' :: path).dropLast
          rw [hinner] at hnone
          cases hnone
        · rw [htaken, follow?_cons_of_fields? hfields] at h
          cases h
        · rw [hmerged] at h
          rw [hold]
          exact ih (hbase.of_get? hold) (hdistinct.of_get? hget) h

/-- **Nulls in overrides are passed over** exactly if each of them stands in an object that meets
one of the base.  A null that does so leaves its place as it was, with all that is behind it. -/
theorem isNullFree_merge_iff (hbase : (obj base).IsNullFree)
    (hdistinct : (obj overrides).HasDistinctKeys) :
    let merged := obj (mergeFields base overrides)
    (merged.IsNullFree ↔ ∀ path, (obj overrides).follow? path = some .null →
        ∃ inner, (obj base).follow? path.dropLast = some (obj inner)) ∧
      ∀ path inner, (obj overrides).follow? path = some .null →
        (obj base).follow? path.dropLast = some (obj inner) →
        ∀ rest, merged.follow? (path ++ rest) = (obj base).follow? (path ++ rest) := by
  intro merged
  refine ⟨⟨fun hfree path hnull => ?_, fun hmeets path hnull => ?_⟩,
    fun path inner hnull hinner rest => ?_⟩
  · by_contra hapart
    obtain ⟨front, key, fields, rfl, hfields, hkey⟩ := exists_fields_of_null hnull
    rw [List.dropLast_concat] at hapart
    refine hfree (front ++ [key]) ?_
    rcases mergeValue_cases ((obj base).follow? front) (obj fields) with
      ⟨-, htaken⟩ | ⟨inner, _, hinner, -, -⟩
    · rw [follow?_append, follow?_merge hdistinct hfields rfl, htaken, ← hfields, ← follow?_append,
        hnull]
    · exact absurd ⟨inner, hinner⟩ hapart
  · obtain ⟨hover, hapart⟩ := null_of_merge hbase hdistinct hnull
    obtain ⟨inner, hinner⟩ := hmeets path hover
    exact hapart inner hinner
  · obtain ⟨front, key, fields, rfl, hfields, hkey⟩ := exists_fields_of_null hnull
    rw [List.dropLast_concat] at hinner
    rw [List.append_assoc, List.singleton_append]
    exact follow?_merge_of_silent hdistinct hfields (said?_eq_none_iff.2 (.inr hkey)) hinner rest

/-- Null is said of a key where the base has an object, and of one where it has none. -/
theorem isNullFree_merge_iff_bindings :
    let base : Fields Json :=
      [("keybindings".toList, .obj [("submit".toList, .str "ctrl+j".toList)])]
    let overrides : Fields Json := [("keybindings".toList, .obj [("submit".toList, .null)]),
      ("theme".toList, .obj [("colour".toList, .null)])]
    let merged := obj (mergeFields base overrides)
    (obj base).IsNullFree ∧ (obj overrides).HasDistinctKeys ∧
      merged.follow? ["keybindings".toList, "submit".toList] = some (.str "ctrl+j".toList) ∧
      ¬ merged.IsNullFree := by
  intro base overrides merged
  have hbase : (obj base).IsNullFree :=
    isNullFree_obj (List.forall_mem_singleton.2
      (isNullFree_obj (List.forall_mem_singleton.2 (isNullFree_of_fields? rfl nofun))))
  have hinner : ∀ key : List Char, (obj [(key, .null)]).HasDistinctKeys := fun key =>
    .flat (by simp [Fields.keys]) (List.forall_mem_singleton.2 rfl)
  have hdistinct : (obj overrides).HasDistinctKeys :=
    .object (by decide)
      (List.forall_mem_cons.2 ⟨hinner _, List.forall_mem_singleton.2 (hinner _)⟩)
  obtain ⟨hiff, hkept⟩ := isNullFree_merge_iff hbase hdistinct
  refine ⟨hbase, hdistinct, ?_, fun hfree => ?_⟩
  · exact hkept ["keybindings".toList, "submit".toList] _ rfl rfl []
  · obtain ⟨inner, hinner⟩ := hiff.1 hfree ["theme".toList, "colour".toList] rfl
    cases hinner

/-- A null gets into settings that have none: the object that it stands in met no object. -/
theorem not_forall_isNullFree_merge :
    ¬ ∀ base overrides : Fields Json, (obj base).IsNullFree → (obj overrides).HasDistinctKeys →
      (obj (mergeFields base overrides)).IsNullFree := by
  intro h
  have hinner : (obj [("exit".toList, .null)]).HasDistinctKeys :=
    .flat (by decide) (by decide)
  have hdistinct : (obj [("keybindings".toList, obj [("exit".toList, .null)])]).HasDistinctKeys :=
    .object (by decide) (List.forall_mem_singleton.2 hinner)
  exact h [] _ (isNullFree_obj nofun) hdistinct ["keybindings".toList, "exit".toList] rfl

end ShellLine.Json
