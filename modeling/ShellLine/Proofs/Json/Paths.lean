import Mathlib.Tactic.SplitIfs
import ShellLine.Json.Parse

/-!
# Proofs/Json/Paths — where a path of keys leads

`Json.follow?` goes from object to object, key by key.  An object is kept as the list of its
entries, and `Json.HasDistinctKeys` says that no key stands twice in an object that a path leads
to.  It holds of every value that is read from a text (`Json.hasDistinctKeys_of_parse`).
-/

namespace ShellLine

/-- A result that is changed on success was a success. -/
theorem exists_of_map_eq_ok {ε α β : Type} {r : Except ε α} {f : α → β} {b : β}
    (h : r.map f = .ok b) : ∃ a, r = .ok a ∧ f a = b := by
  cases r with
  | error e => cases h
  | ok a =>
    cases h
    exact ⟨a, rfl, rfl⟩

namespace Json

variable {v : Json} {fields : Fields Json} {key : List Char} {path : List (List Char)}

theorem eq_obj_of_fields? (h : v.fields? = some fields) : v = .obj fields := by
  cases v with
  | obj fields =>
    cases h
    rfl
  | _ => cases h

/-- The value that a path of keys leads to, from object to object. -/
def follow? : Json → List (List Char) → Option Json
  | v, [] => some v
  | .obj fields, key :: path => (Fields.get? key fields).bind fun v => v.follow? path
  | _, _ :: _ => none

@[simp] theorem follow?_nil (v : Json) : v.follow? [] = some v := by
  rw [follow?]

@[simp] theorem follow?_obj_cons (fields : Fields Json) (key : List Char)
    (path : List (List Char)) :
    (obj fields).follow? (key :: path) = (fields.get? key).bind fun v => v.follow? path := rfl

/-- From a value that is no object a path leads nowhere. -/
theorem follow?_cons_of_fields? (h : v.fields? = none) : v.follow? (key :: path) = none := by
  cases v with
  | obj fields => cases h
  | _ => rfl

theorem exists_fields_of_follow?_cons {w : Json} (h : v.follow? (key :: path) = some w) :
    ∃ fields, v = obj fields := by
  cases v with
  | obj fields => exact ⟨fields, rfl⟩
  | _ => cases h

theorem follow?_append (v : Json) (path rest : List (List Char)) :
    v.follow? (path ++ rest) = (v.follow? path).bind fun w => w.follow? rest := by
  induction path generalizing v with
  | nil => rw [follow?_nil, List.nil_append, Option.bind_some]
  | cons key path ih =>
    rw [List.cons_append]
    cases hv : v.fields? with
    | none => rw [follow?_cons_of_fields? hv, follow?_cons_of_fields? hv, Option.bind_none]
    | some fields =>
      rw [eq_obj_of_fields? hv, follow?_obj_cons, follow?_obj_cons, Option.bind_assoc]
      simp only [ih]

/-! ## Objects name a key once -/

/-- In each object that a path leads to, no key stands twice. -/
inductive HasDistinctKeys : Json → Prop
  | object {fields : Fields Json} (hkeys : fields.keys.Nodup)
      (hvalues : ∀ e ∈ fields, HasDistinctKeys e.2) : HasDistinctKeys (.obj fields)
  | other {v : Json} (h : v.fields? = none) : HasDistinctKeys v

namespace HasDistinctKeys

theorem nodup_keys (h : (obj fields).HasDistinctKeys) : fields.keys.Nodup := by
  cases h with
  | object hkeys _ => exact hkeys
  | other h => cases h

theorem of_mem (h : (obj fields).HasDistinctKeys) {e : List Char × Json} (he : e ∈ fields) :
    e.2.HasDistinctKeys := by
  cases h with
  | object _ hvalues => exact hvalues e he
  | other h => cases h

theorem of_get? (h : (obj fields).HasDistinctKeys) (hv : fields.get? key = some v) :
    v.HasDistinctKeys :=
  h.of_mem (Fields.mem_of_get? hv)

theorem of_follow? {w : Json} (h : v.HasDistinctKeys) (hw : v.follow? path = some w) :
    w.HasDistinctKeys := by
  induction path generalizing v with
  | nil =>
    rw [follow?_nil] at hw
    cases hw
    exact h
  | cons key path ih =>
    obtain ⟨fields, rfl⟩ := exists_fields_of_follow?_cons hw
    rw [follow?_obj_cons] at hw
    obtain ⟨u, hu, hw⟩ := Option.bind_eq_some_iff.1 hw
    exact ih (h.of_get? hu) hw

/-- An object with no object in it. -/
theorem flat (hkeys : fields.keys.Nodup) (h : ∀ e ∈ fields, e.2.fields?.isNone) :
    (obj fields).HasDistinctKeys :=
  .object hkeys fun e he => .other (Option.isNone_iff_eq_none.1 (h e he))

theorem put (h : (obj fields).HasDistinctKeys) (hv : v.HasDistinctKeys) :
    (obj (fields.put key v)).HasDistinctKeys := by
  refine .object (Fields.nodup_keys_put key v h.nodup_keys) fun e he => ?_
  rcases Fields.mem_put he with rfl | hmem
  · exact hv
  · exact h.of_mem hmem

/-- The object of a list of entries, whatever keys stand in it. -/
theorem ofList {entries : List (List Char × Json)} (h : ∀ e ∈ entries, e.2.HasDistinctKeys) :
    (obj (Fields.ofList entries)).HasDistinctKeys :=
  .object (Fields.nodup_keys_ofList entries) fun e he => h e (Fields.mem_of_mem_ofList he)

end HasDistinctKeys

/-! ## Reading -/

theorem fields?_of_number {negative : Bool} {s rest : List Char}
    (h : number negative s = .ok (v, rest)) : v.fields? = none := by
  unfold number at h
  extract_lets whole at h
  split_ifs at h
  · dsimp only at h
    split at h
    · obtain ⟨w, hw, heq⟩ := exists_of_map_eq_ok h
      cases heq
      rw [wholeNumber] at hw
      split at hw
      · cases hw
      · cases hw
        rfl
    · cases h
      rfl

theorem fields?_of_scalar {s rest : List Char} (h : scalar s = .ok (v, rest)) :
    v.fields? = none := by
  unfold scalar at h
  split at h
  next r hr =>
    cases h
    obtain ⟨n, hn, hname⟩ := List.exists_of_findSome?_eq_some hr
    obtain ⟨_, -, heq⟩ := Option.map_eq_some_iff.1 hname
    cases heq
    have hnames : ∀ n ∈ names, n.2.fields?.isNone := by decide
    exact Option.isNone_iff_eq_none.1 (hnames n hn)
  next =>
    split at h
    · exact fields?_of_number h
    · exact fields?_of_number h

/-- Whatever is read at a depth, its objects name each key once.  The induction is on the depth,
over the three readings that lead to the value of an object. -/
theorem hasDistinctKeys_of_reading (depth : Nat) :
    (∀ {s rest v}, value depth s = .ok (v, rest) → v.HasDistinctKeys) ∧
      (∀ {s rest v}, entryValue depth s = .ok (v, rest) → v.HasDistinctKeys) ∧
      ∀ {s rest es}, entries depth s = .ok (es, rest) → ∀ e ∈ es, e.2.HasDistinctKeys := by
  induction depth with
  | zero => exact ⟨nofun, nofun, nofun⟩
  | succ depth ih =>
    obtain ⟨ihvalue, ihentry, ihentries⟩ := ih
    refine ⟨fun {s rest v} h => ?value, fun {s rest v} h => ?entry, fun {s rest es} h => ?entries⟩
    case value =>
      rw [value.eq_def] at h
      dsimp only at h
      split at h
      · obtain ⟨p, -, hp⟩ := exists_of_map_eq_ok h
        cases hp
        exact .other rfl
      · split at h
        · cases h
          exact .other rfl
        · obtain ⟨p, -, hp⟩ := exists_of_map_eq_ok h
          cases hp
          exact .other rfl
      · split at h
        · cases h
          exact .object List.nodup_nil nofun
        · obtain ⟨p, hentries, hp⟩ := exists_of_map_eq_ok h
          cases hp
          exact .ofList (ihentries hentries)
      · exact .other (fields?_of_scalar h)
    case entry =>
      rw [entryValue] at h
      split at h
      · exact ihvalue h
      · cases h
    case entries =>
      rw [entries.eq_def] at h
      dsimp only at h
      split at h
      · split at h
        · cases h
        next key s _ =>
          split at h
          · cases h
          next v s hv =>
            have hfirst := ihentry hv
            split at h
            · cases h
              exact List.forall_mem_singleton.2 hfirst
            · obtain ⟨p, hrest, hp⟩ := exists_of_map_eq_ok h
              cases hp
              exact List.forall_mem_cons.2 ⟨hfirst, ihentries hrest⟩
            · cases h
      · cases h

/-- **A text that is read** gives a value whose objects name each key once. -/
theorem hasDistinctKeys_of_parse {s : List Char} (h : parse s = .ok v) : v.HasDistinctKeys := by
  rw [parse] at h
  split at h
  next w rest hw =>
    split at h
    · cases h
      exact (hasDistinctKeys_of_reading _).1 hw
    · cases h
  next => cases h

end Json

end ShellLine
