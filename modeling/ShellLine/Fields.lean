/-!
# Fields — an ordered map from texts

A map kept as the list of its entries, each key once.  `put` leaves an old key where it stands and
appends a new one, so the order is that of first insertion and the value that of the last.
-/

namespace ShellLine

/-- The entries of an ordered map, in the order their keys came. -/
abbrev Fields (α : Type) := List (List Char × α)

namespace Fields

variable {α : Type}

/-- The value of a key. -/
def get? (key : List Char) : Fields α → Option α
  | [] => none
  | (k, v) :: fs => if k = key then some v else get? key fs

/-- Give a key a value: an old key keeps its place, a new one goes to the end. -/
def put (key : List Char) (value : α) : Fields α → Fields α
  | [] => [(key, value)]
  | (k, v) :: fs => if k = key then (k, value) :: fs else (k, v) :: put key value fs

/-- The map of a list of entries: the first place and the last value of each key. -/
def ofList (entries : List (List Char × α)) : Fields α :=
  entries.foldl (fun fs e => put e.1 e.2 fs) []

/-- The keys, in order. -/
def keys (fs : Fields α) : List (List Char) := fs.map Prod.fst

theorem get?_eq_none_iff {key : List Char} :
    ∀ {fs : Fields α}, get? key fs = none ↔ key ∉ keys fs
  | [] => by simp [get?, keys]
  | (k, v) :: fs => by
      have ih := @get?_eq_none_iff key fs
      rw [keys] at ih
      rw [get?, keys, List.map_cons, List.mem_cons, not_or, ← ih]
      split
      next h => simp [h]
      next h => simp [Ne.symm h]

/-- The entries in front of a key are a map without it. -/
theorem nodup_front {before rest : Fields α} {key : List Char} {value : α}
    (h : (keys (before ++ (key, value) :: rest)).Nodup) :
    (keys before).Nodup ∧ key ∉ keys before := by
  rw [keys, List.map_append, List.map_cons, List.nodup_append] at h
  obtain ⟨hbefore, -, hdisjoint⟩ := h
  exact ⟨hbefore, fun hmem => hdisjoint key hmem key (List.mem_cons_self ..) rfl⟩

theorem get?_put (key : List Char) (value : α) (k : List Char) :
    ∀ fs : Fields α, get? k (put key value fs) = if key = k then some value else get? k fs
  | [] => rfl
  | (k', v) :: fs => by
      have ih := get?_put key value k fs
      by_cases h : k' = key <;> by_cases h' : k' = k <;> simp_all [put, get?, eq_comm]

theorem mem_keys_put (key : List Char) (value : α) (k : List Char) :
    ∀ fs : Fields α, k ∈ keys (put key value fs) ↔ k = key ∨ k ∈ keys fs
  | [] => by simp [put, keys]
  | (k', v) :: fs => by
      have ih := mem_keys_put key value k fs
      simp only [keys, put] at ih ⊢
      split
      · next h => simp [h]
      · rw [List.map_cons, List.mem_cons, ih, List.map_cons, List.mem_cons, or_left_comm]

theorem length_put_le (key : List Char) (value : α) :
    ∀ fs : Fields α, (put key value fs).length ≤ fs.length + 1
  | [] => Nat.le_refl 1
  | (k, v) :: fs => by
      have ih := length_put_le key value fs
      rw [put]
      split
      next => exact Nat.le_succ _
      next => exact Nat.succ_le_succ ih

theorem mem_of_get? {key : List Char} {value : α} :
    ∀ {fs : Fields α}, get? key fs = some value → (key, value) ∈ fs
  | [], h => by cases h
  | (k, v) :: fs, h => by
      rw [get?] at h
      split at h
      next hk =>
        cases h
        rw [hk]
        exact List.mem_cons_self
      next => exact List.mem_cons_of_mem _ (mem_of_get? h)

/-- Where each key stands once, every entry is found. -/
theorem get?_of_mem {key : List Char} {value : α} :
    ∀ {fs : Fields α}, (keys fs).Nodup → (key, value) ∈ fs → get? key fs = some value
  | [], _, h => by cases h
  | (k, v) :: fs, hkeys, h => by
      rw [keys, List.map_cons, List.nodup_cons] at hkeys
      rcases List.mem_cons.1 h with heq | hmem
      · cases heq
        rw [get?, if_pos rfl]
      · have hne : k ≠ key := fun heq => hkeys.1 (heq ▸ List.mem_map.2 ⟨_, hmem, rfl⟩)
        rw [get?, if_neg hne, get?_of_mem hkeys.2 hmem]

/-- Giving a key the value that it has changes nothing. -/
theorem put_of_get? {key : List Char} {value : α} :
    ∀ {fs : Fields α}, get? key fs = some value → put key value fs = fs
  | [], h => by cases h
  | (k, v) :: fs, h => by
      rw [get?] at h
      rw [put]
      split at h
      next hk =>
        cases h
        rw [if_pos hk, hk]
      next hk => rw [if_neg hk, put_of_get? h]

theorem mem_put {key : List Char} {value : α} {e : List Char × α} :
    ∀ {fs : Fields α}, e ∈ put key value fs → e = (key, value) ∨ e ∈ fs
  | [], h => .inl (List.mem_singleton.1 h)
  | (k, v) :: fs, h => by
      rw [put] at h
      split at h
      next hk =>
        rw [hk] at h
        exact (List.mem_cons.1 h).imp_right (List.mem_cons_of_mem _)
      next =>
        rcases List.mem_cons.1 h with rfl | hmem
        · exact .inr List.mem_cons_self
        · exact (mem_put hmem).imp_right (List.mem_cons_of_mem _)

theorem nodup_keys_put (key : List Char) (value : α) :
    ∀ {fs : Fields α}, (keys fs).Nodup → (keys (put key value fs)).Nodup
  | [], _ => List.nodup_cons.2 ⟨List.not_mem_nil, List.nodup_nil⟩
  | (k, v) :: fs, hkeys => by
      have hcons := hkeys
      rw [keys, List.map_cons, List.nodup_cons] at hcons
      rw [put]
      split
      next => exact hkeys
      next hk =>
        rw [keys, List.map_cons, List.nodup_cons]
        refine ⟨fun hmem => ?_, nodup_keys_put key value hcons.2⟩
        rcases (mem_keys_put key value k fs).1 hmem with heq | hmem
        · exact hk heq
        · exact hcons.1 hmem

theorem nodup_keys_ofList (entries : List (List Char × α)) : (keys (ofList entries)).Nodup := by
  have h : ∀ fs : Fields α, (keys fs).Nodup →
      (keys (entries.foldl (fun fs e => put e.1 e.2 fs) fs)).Nodup := by
    induction entries with
    | nil => exact fun _ hkeys => hkeys
    | cons e entries ih => exact fun _ hkeys => ih _ (nodup_keys_put e.1 e.2 hkeys)
  exact h [] List.nodup_nil

theorem mem_of_mem_ofList {entries : List (List Char × α)} {e : List Char × α}
    (h : e ∈ ofList entries) : e ∈ entries := by
  have hfold : ∀ fs : Fields α, e ∈ entries.foldl (fun fs e => put e.1 e.2 fs) fs →
      e ∈ entries ∨ e ∈ fs := by
    clear h
    induction entries with
    | nil => exact fun _ hmem => .inr hmem
    | cons e' entries ih =>
      intro fs hmem
      rcases ih _ hmem with hentries | hput
      · exact .inl (List.mem_cons_of_mem _ hentries)
      · rcases mem_put hput with rfl | hfs
        · exact .inl List.mem_cons_self
        · exact .inr hfs
  exact (hfold [] h).resolve_right List.not_mem_nil

/-- The keys of the map are those of the entries. -/
theorem mem_keys_ofList (entries : List (List Char × α)) (k : List Char) :
    k ∈ keys (ofList entries) ↔ k ∈ entries.map Prod.fst := by
  have h : ∀ fs : Fields α, k ∈ keys (entries.foldl (fun fs e => put e.1 e.2 fs) fs) ↔
      k ∈ keys fs ∨ k ∈ entries.map Prod.fst := by
    induction entries with
    | nil => simp
    | cons e entries ih =>
      intro fs
      rw [List.foldl_cons, ih, mem_keys_put, List.map_cons, List.mem_cons, or_assoc, or_left_comm]
  rw [ofList, h]
  simp [keys]

end Fields

end ShellLine
