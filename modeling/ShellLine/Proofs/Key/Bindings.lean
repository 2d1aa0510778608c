import ShellLine.Key.Bindings
import ShellLine.Proofs.Key.Chord

/-!
# Proofs/Key/Bindings — what a config binds

A config is usable where each action that it names gets keys or lists of keys.  A usable config gives
each action the keys of its entry, and the default keys where it has none (`Bindings.override_eq`); an
entry that is not usable ends the reading (`Bindings.override_failed`).  The action of a key is the
first that has it, those of the config before all others (`Bindings.lookup_ownersOf`).

`Bindings.Resolves` says all of this for a config of key ids, and `Bindings.resolves_configureAll` that
it holds of the last config, whatever configs came before.
-/

namespace ShellLine

namespace Action

variable {name : List Char} {a : Action}

theorem ofName?_name (a : Action) : ofName? a.name = some a := by
  have hall : ∀ a ∈ all, ofName? a.name = some a := by decide +kernel
  exact hall a (mem_all a)

theorem ofName?_eq_some_iff : ofName? name = some a ↔ a.name = name := by
  constructor
  · intro h
    have hname := List.find?_some h
    exact beq_iff_eq.1 hname
  · rintro rfl
    exact ofName?_name a

/-- A name that is not known is that of no action. -/
theorem ofName?_eq_none_iff : ofName? name = none ↔ ∀ a : Action, a.name ≠ name := by
  rw [Option.eq_none_iff_forall_ne_some]
  exact forall_congr' fun a => ofName?_eq_some_iff.not

theorem name_inj {b : Action} (h : a.name = b.name) : a = b := by
  have hname := ofName?_name a
  rw [h, ofName?_name, Option.some.injEq] at hname
  exact hname.symm

/-- Every default key is the name of a listed key with some modifiers. -/
theorem exists_press_of_mem_defaultKeys {k : List Char} (h : k ∈ a.defaultKeys) :
    ∃ key mods, Key.IsListed key ∧ (Event.press key mods).keyId = k := by
  have hall : ∀ a ∈ all, ∀ k ∈ a.defaultKeys,
      ∃ key ∈ Key.named ++ "abcdefkmnpw".toList.map Key.char,
      ∃ mods ∈ [.empty, .onlyShift, .onlyAlt, .onlyCtrl], (Event.press key mods).keyId = k := by
    decide +kernel
  obtain ⟨key, hkey, mods, -, hname⟩ := hall a (mem_all a) k h
  refine ⟨key, mods, (List.mem_append.1 hkey).imp_right fun hchar => ?_, hname⟩
  obtain ⟨c, -, rfl⟩ := List.mem_map.1 hchar
  exact ⟨c, rfl⟩

/-- Each action has a default key that can be pressed. -/
theorem exists_event (a : Action) : ∃ e : Event, e.keyId ∈ a.defaultKeys := by
  obtain ⟨k, hk⟩ := List.exists_mem_of_ne_nil a.defaultKeys (by cases a <;> decide)
  obtain ⟨key, mods, -, rfl⟩ := exists_press_of_mem_defaultKeys hk
  exact ⟨_, hk⟩

/-- The default keys are in their canonical spelling. -/
theorem filterMap_normalize?_defaultKeys (a : Action) :
    a.defaultKeys.filterMap Chord.normalize? = a.defaultKeys := by
  have hself : ∀ k ∈ a.defaultKeys, Chord.normalize? k = some k := by
    intro k hk
    obtain ⟨key, mods, hkey, rfl⟩ := exists_press_of_mem_defaultKeys hk
    exact (hkey.isCanonical mods).normalize?_text
  rw [List.filterMap_congr hself, List.filterMap_some]

end Action

/-! ## The keys that a value gives -/

namespace Json

/-- Is the value read as a key: is it a text, or does it say nothing? -/
def isKeyId : Json → Bool
  | .str _ => true
  | v => v.isVoid

/-- The canonical spelling of the key that a value is. -/
def keyId? : Json → Option (List Char)
  | .str s => Chord.normalize? s
  | _ => none

/-- The values that can be keys: those of a list, or the value itself. -/
def keyItems : Json → List Json
  | .arr items => items
  | v => [v]

/-- Does the value give an action keys? -/
def givesKeys (v : Json) : Bool := v.keyItems.all isKeyId

/-- The keys that the value gives an action, those that cannot be read left out. -/
def keysGiven (v : Json) : List (List Char) := v.keyItems.filterMap keyId?

end Json

namespace Bindings

theorem readKeys?_eq : ∀ vs : List Json,
    readKeys? vs = if vs.all Json.isKeyId then some (vs.filterMap Json.keyId?) else none
  | [] => rfl
  | v :: vs => by
      have ih := readKeys?_eq vs
      rw [List.all_cons, List.filterMap_cons]
      cases v with
      | str s =>
        rw [readKeys?, ih, Json.isKeyId, Bool.true_and, Json.keyId?]
        split_ifs <;> cases Chord.normalize? s <;> rfl
      | _ =>
        rw [readKeys?.eq_def]
        simp only [Json.isKeyId, Json.keyId?, ih, Bool.and_eq_true]
        split_ifs <;> simp_all

theorem keysOf?_eq (v : Json) : keysOf? v = if v.givesKeys then some v.keysGiven else none := by
  rw [Json.givesKeys, Json.keysGiven, ← readKeys?_eq]
  cases v <;> rfl

/-! ## The keys that a config gives -/

variable {keys : Action → List (List Char)} {fields before rest : Fields Json} {name : List Char}
  {v : Json} {a : Action}

/-- An entry of a config that names an action gives it keys. -/
def IsUsable (entry : List Char × Json) : Prop :=
  ∀ a, Action.ofName? entry.1 = some a → entry.2.givesKeys = true

/-- The keys of an action where some entries are set: those of its entry, if there is one. -/
def keysWith (keys : Action → List (List Char)) (fields : Fields Json) (a : Action) :
    List (List Char) :=
  ((fields.get? a.name).map Json.keysGiven).getD (keys a)

theorem override_cons_unknown (h : Action.ofName? name = none) :
    override keys ((name, v) :: rest) = override keys rest := by
  rw [override, h]

theorem override_cons (h : Action.ofName? name = some a) (hv : v.givesKeys = true) :
    override keys ((name, v) :: rest) = override (setKeys keys a v.keysGiven) rest := by
  rw [override, h]
  simp only [keysOf?_eq, if_pos hv]

theorem override_cons_failed (h : Action.ofName? name = some a) (hv : v.givesKeys = false) :
    override keys ((name, v) :: rest) = (keys, some (.keyNotText a)) := by
  rw [override, h]
  simp only [keysOf?_eq, hv, if_neg Bool.false_ne_true]

theorem override_append (h : ∀ entry ∈ before, IsUsable entry) :
    override keys (before ++ rest) = override (override keys before).1 rest := by
  induction before generalizing keys with
  | nil => rfl
  | cons entry before ih =>
    obtain ⟨hentry, hbefore⟩ := List.forall_mem_cons.1 h
    obtain ⟨name, v⟩ := entry
    rw [List.cons_append]
    cases hname : Action.ofName? name with
    | none => rw [override_cons_unknown hname, override_cons_unknown hname, ih hbefore]
    | some a =>
      rw [override_cons hname (hentry a hname), override_cons hname (hentry a hname), ih hbefore]

theorem keysWith_cons (b : Action) :
    keysWith keys ((name, v) :: rest) b =
      if b.name = name then v.keysGiven else keysWith keys rest b := by
  by_cases h : b.name = name
  · rw [if_pos h, keysWith, Fields.get?, if_pos h.symm]
    rfl
  · rw [if_neg h, keysWith, Fields.get?, if_neg (Ne.symm h), keysWith]

theorem keysWith_of_not_mem (h : a.name ∉ fields.keys) : keysWith keys fields a = keys a := by
  rw [keysWith, Fields.get?_eq_none_iff.2 h]
  rfl

theorem keysWith_setKeys_of_ne {b : Action} {ks : List (List Char)} (h : b ≠ a) :
    keysWith (setKeys keys a ks) fields b = keysWith keys fields b := by
  rw [keysWith, keysWith, setKeys, if_neg h]

/-- **Usable entries** give their actions keys and leave the keys of the others as they are. -/
theorem override_eq (hnodup : fields.keys.Nodup) (h : ∀ entry ∈ fields, IsUsable entry) :
    override keys fields = (keysWith keys fields, none) := by
  induction fields generalizing keys with
  | nil => rfl
  | cons entry rest ih =>
    obtain ⟨hentry, hrest⟩ := List.forall_mem_cons.1 h
    obtain ⟨name, v⟩ := entry
    obtain ⟨hname, hrestNodup⟩ := List.nodup_cons.1 hnodup
    cases hof : Action.ofName? name with
    | none =>
      have hunknown := Action.ofName?_eq_none_iff.1 hof
      have hkeys : keysWith keys ((name, v) :: rest) = keysWith keys rest := funext fun b => by
        rw [keysWith_cons, if_neg (hunknown b)]
      rw [override_cons_unknown hof, ih hrestNodup hrest, hkeys]
    | some a =>
      obtain rfl := Action.ofName?_eq_some_iff.1 hof
      have hkeys : keysWith keys ((a.name, v) :: rest) =
          keysWith (setKeys keys a v.keysGiven) rest := funext fun b => by
        rw [keysWith_cons]
        split_ifs with hb
        -- the entries behind do not name the action again, so the keys set here stay
        · rw [Action.name_inj hb, keysWith_of_not_mem hname, setKeys, if_pos rfl]
        · rw [keysWith_setKeys_of_ne fun heq => hb (congrArg Action.name heq)]
      rw [override_cons hof (hentry a hof), ih hrestNodup hrest, hkeys]

/-- **An entry that is not usable** ends the reading behind the entries in front of it. -/
theorem override_failed (hnodup : before.keys.Nodup) (h : ∀ entry ∈ before, IsUsable entry)
    (ha : Action.ofName? name = some a) (hv : v.givesKeys = false) :
    override keys (before ++ (name, v) :: rest) = (keysWith keys before, some (.keyNotText a)) := by
  rw [override_append h, override_eq hnodup h, override_cons_failed ha hv]

/-- A config is usable, or there is a first entry that is not. -/
theorem isUsable_or_failed (fields : Fields Json) :
    (∀ entry ∈ fields, IsUsable entry) ∨
      ∃ (before : Fields Json) (a : Action) (v : Json) (rest : Fields Json),
        fields = before ++ (a.name, v) :: rest ∧ (∀ entry ∈ before, IsUsable entry) ∧
          v.givesKeys = false := by
  induction fields with
  | nil => exact .inl (by simp)
  | cons entry fields ih =>
    by_cases hentry : IsUsable entry
    · rcases ih with h | ⟨before, a, v, rest, rfl, hbefore, hv⟩
      · exact .inl (List.forall_mem_cons.2 ⟨hentry, h⟩)
      · exact .inr ⟨entry :: before, a, v, rest, rfl, List.forall_mem_cons.2 ⟨hentry, hbefore⟩, hv⟩
    · obtain ⟨name, v⟩ := entry
      simp only [IsUsable, not_forall, Bool.not_eq_true] at hentry
      obtain ⟨a, ha, hv⟩ := hentry
      obtain rfl := Action.ofName?_eq_some_iff.1 ha
      exact .inr ⟨[], a, v, fields, rfl, by simp, hv⟩

/-! ## The action that a key is claimed by -/

/-- **A key is claimed by the first action that has it.** -/
theorem lookup_ownersOf (keys : Action → List (List Char)) (k : List Char) :
    ∀ order : List Action,
      (ownersOf keys order).lookup k = order.find? fun a => (keys a).contains k
  | [] => rfl
  | a :: order => by
      have hown : ∀ ks : List (List Char), (ks.map fun k => (k, a)).lookup k =
          if ks.contains k then some a else none := by
        intro ks
        induction ks with
        | nil => rfl
        | cons k' ks ih =>
          rw [List.map_cons, List.lookup_cons, ih, List.contains_cons]
          cases k == k' <;> simp
      have ih := lookup_ownersOf keys k order
      rw [ownersOf] at ih
      rw [ownersOf, List.flatMap_cons, List.lookup_append, hown, ih, List.find?_cons]
      cases (keys a).contains k <;> rfl

theorem mem_named_iff : a ∈ fields.keys.filterMap Action.ofName? ↔ a.name ∈ fields.keys := by
  simp [List.mem_filterMap, Action.ofName?_eq_some_iff]

theorem mem_claimOrder (fields : Fields Json) (a : Action) : a ∈ claimOrder fields := by
  rw [claimOrder, List.mem_append, List.mem_filter]
  by_cases h : a ∈ fields.keys.filterMap Action.ofName?
  · exact .inl h
  · exact .inr ⟨Action.mem_all a, by simpa using h⟩

/-- A key that no action claims is one that no action has. -/
theorem lookup_ownersOf_claimOrder_eq_none_iff (k : List Char) :
    (ownersOf keys (claimOrder fields)).lookup k = none ↔ ∀ a, (keys a).contains k = false := by
  rw [lookup_ownersOf, List.find?_eq_none]
  simp only [Bool.not_eq_true]
  exact ⟨fun h a => h a (mem_claimOrder fields a), fun h a _ => h a⟩

/-- The bindings of a config that can be used: each action has its keys, and claims them in turn. -/
theorem ofConfig_eq (hnodup : fields.keys.Nodup) (h : ∀ entry ∈ fields, IsUsable entry) :
    ofConfig (.obj fields) = (⟨keysWith Action.defaultKeys fields,
      ownersOf (keysWith Action.defaultKeys fields) (claimOrder fields)⟩, none) := by
  rw [ofConfig, Json.fields?]
  simp only [override_eq hnodup h]

/-- The bindings of a config that fails at an entry: the actions have the keys of the entries in
front of it, and none of them claims a key. -/
theorem ofConfig_failed (hnodup : before.keys.Nodup) (h : ∀ entry ∈ before, IsUsable entry)
    (hv : v.givesKeys = false) :
    ofConfig (.obj (before ++ (a.name, v) :: rest)) =
      (⟨keysWith Action.defaultKeys before, []⟩, some (.keyNotText a)) := by
  rw [ofConfig, Json.fields?]
  simp only [override_failed hnodup h (Action.ofName?_name a) hv]

variable {b : Bindings} {e : Event}

theorem keysNamed_name (b : Bindings) (a : Action) : b.keysNamed a.name = b.keys a := by
  rw [keysNamed, Action.ofName?_name]
  rfl

theorem bindsNamed_name (b : Bindings) (e : Event) (a : Action) :
    b.bindsNamed e a.name = b.binds e a := by
  rw [bindsNamed, keysNamed_name, binds]

/-- A name that is not known has no keys. -/
theorem keysNamed_unknown (h : ∀ a : Action, a.name ≠ name) : b.keysNamed name = [] := by
  rw [keysNamed, Action.ofName?_eq_none_iff.2 h]
  rfl

theorem bindsNamed_unknown (h : ∀ a : Action, a.name ≠ name) : b.bindsNamed e name = false := by
  rw [bindsNamed, keysNamed_unknown h]
  rfl

end Bindings

/-! ## Configs of key ids -/

/-- What a config of key ids gives an action: one key id, or a list of them. -/
inductive KeySpec
  | one (id : List Char)
  | many (ids : List (List Char))

namespace KeySpec

/-- The key ids, in order. -/
def ids : KeySpec → List (List Char)
  | one id => [id]
  | many ids => ids

/-- The key ids as a value of a config. -/
def toJson : KeySpec → Json
  | one id => .str id
  | many ids => .arr (ids.map .str)

theorem keyItems_toJson : ∀ spec : KeySpec, spec.toJson.keyItems = spec.ids.map .str
  | one _ => rfl
  | many _ => rfl

theorem givesKeys_toJson (spec : KeySpec) : spec.toJson.givesKeys = true := by
  rw [Json.givesKeys, keyItems_toJson, List.all_map, List.all_eq_true]
  exact fun _ _ => rfl

theorem keysGiven_toJson (spec : KeySpec) :
    spec.toJson.keysGiven = spec.ids.filterMap Chord.normalize? := by
  rw [Json.keysGiven, keyItems_toJson, List.filterMap_map]
  rfl

end KeySpec

/-- A config of key ids: some names, each once, with what they are given.  A name need not be that of
an action, nor a key id one that can be read. -/
structure KeyConfig where
  entries : Fields KeySpec
  nodup : entries.keys.Nodup

namespace KeyConfig

variable {c : KeyConfig} {a : Action}

/-- The fields of the config. -/
def fields (c : KeyConfig) : Fields Json := c.entries.map fun entry => (entry.1, entry.2.toJson)

/-- The config as a value. -/
def toJson (c : KeyConfig) : Json := .obj c.fields

/-- The keys of an action: those of its entry that can be read, or else its default keys. -/
def keysOf (c : KeyConfig) (a : Action) : List (List Char) :=
  (((c.entries.get? a.name).map KeySpec.ids).getD a.defaultKeys).filterMap Chord.normalize?

/-- The order of the actions: those that the config names, then the others. -/
def order (c : KeyConfig) : List Action :=
  c.entries.keys.filterMap Action.ofName? ++ Action.all.filter fun a => a.name ∉ c.entries.keys

theorem keys_fields (c : KeyConfig) : c.fields.keys = c.entries.keys := by
  rw [fields, Fields.keys, List.map_map]
  rfl

theorem isUsable_of_mem_fields (c : KeyConfig) : ∀ entry ∈ c.fields, Bindings.IsUsable entry := by
  intro entry h a _
  obtain ⟨⟨name, spec⟩, -, rfl⟩ := List.mem_map.1 h
  exact spec.givesKeys_toJson

theorem get?_fields (c : KeyConfig) (name : List Char) :
    c.fields.get? name = (c.entries.get? name).map KeySpec.toJson := by
  rw [fields]
  induction c.entries with
  | nil => rfl
  | cons entry entries ih =>
    rw [List.map_cons, Fields.get?, Fields.get?, ih]
    split_ifs <;> rfl

theorem keysWith_fields (c : KeyConfig) (a : Action) :
    Bindings.keysWith Action.defaultKeys c.fields a = c.keysOf a := by
  rw [Bindings.keysWith, get?_fields, keysOf]
  cases c.entries.get? a.name with
  | none => exact a.filterMap_normalize?_defaultKeys.symm
  | some spec => exact spec.keysGiven_toJson

theorem claimOrder_fields (c : KeyConfig) : Bindings.claimOrder c.fields = c.order := by
  simp only [Bindings.claimOrder, order, ← keys_fields, List.contains_eq_mem,
    Bindings.mem_named_iff, decide_not]

end KeyConfig

namespace Bindings

variable {b : Bindings} {c : KeyConfig} {a : Action} {e : Event}

/-- The bindings answer as a config says: an action has the keys of the config and is bound to the
events that are one of them, an event stands for the first action that it is bound to, in the order
of the config, and a name that is not known has no keys. -/
structure Resolves (b : Bindings) (c : KeyConfig) : Prop where
  keysNamed_eq : ∀ a : Action, b.keysNamed a.name = c.keysOf a
  bindsNamed_iff : ∀ (e : Event) (a : Action), b.bindsNamed e a.name = true ↔ e.keyId ∈ c.keysOf a
  actionFor?_eq : ∀ e, b.actionFor? e = c.order.find? fun a => b.bindsNamed e a.name
  actionFor?_eq_none_iff : ∀ e, b.actionFor? e = none ↔ ∀ a : Action, b.bindsNamed e a.name = false
  keysNamed_eq_nil : ∀ name, (∀ a : Action, a.name ≠ name) → b.keysNamed name = []
  bindsNamed_eq_false : ∀ e name, (∀ a : Action, a.name ≠ name) → b.bindsNamed e name = false

/-- **One step**: bindings that are given a config answer as it says. -/
theorem resolves_configure (b : Bindings) (c : KeyConfig) :
    ∃ b', b.configure c.toJson = (b', none) ∧ b'.Resolves c := by
  have hnodup : c.fields.keys.Nodup := by
    rw [c.keys_fields]
    exact c.nodup
  have hkeys : keysWith Action.defaultKeys c.fields = c.keysOf := funext c.keysWith_fields
  refine ⟨⟨c.keysOf, ownersOf c.keysOf (claimOrder c.fields)⟩, ?_, ?_⟩
  · rw [configure, KeyConfig.toJson, ofConfig_eq hnodup c.isUsable_of_mem_fields, hkeys]
  refine ⟨fun a => keysNamed_name _ a, fun e a => ?_, fun e => ?_, fun e => ?_,
    fun _ => keysNamed_unknown, fun _ _ => bindsNamed_unknown⟩
  · rw [bindsNamed_name, binds, List.contains_iff_mem]
  · simp only [bindsNamed_name, binds, actionFor?, lookup_ownersOf, c.claimOrder_fields]
  · simp only [bindsNamed_name, binds, actionFor?, lookup_ownersOf_claimOrder_eq_none_iff]

/-- Give bindings one config after the other, up to the first that cannot be used. -/
def configureAll : Bindings → List Json → Bindings × Option BindingError
  | b, [] => (b, none)
  | b, config :: configs =>
    match b.configure config with
    | (b', none) => configureAll b' configs
    | (b', some error) => (b', some error)

/-- **The last config says it all**: bindings that were built from a config of key ids and given
others, one after the other, answer as the last of them says. -/
theorem resolves_configureAll (first : KeyConfig) (later : List KeyConfig) :
    ∃ b b', ofConfig first.toJson = (b, none) ∧
      b.configureAll (later.map KeyConfig.toJson) = (b', none) ∧
      b'.Resolves (later.getLast?.getD first) := by
  -- a config does not ask what came before, so the first is a step as well
  obtain ⟨b, hbuilt, hb⟩ := resolves_configure default first
  refine ⟨b, ?_⟩
  suffices h : ∃ b', b.configureAll (later.map KeyConfig.toJson) = (b', none) ∧
      b'.Resolves (later.getLast?.getD first) by
    obtain ⟨b', hrun, hb'⟩ := h
    exact ⟨b', hbuilt, hrun, hb'⟩
  clear hbuilt
  induction later generalizing first b with
  | nil => exact ⟨b, rfl, hb⟩
  | cons next later ih =>
    obtain ⟨b₁, hset, hb₁⟩ := resolves_configure b next
    obtain ⟨b', hrun, hb'⟩ := ih next b₁ hb₁
    refine ⟨b', ?_, ?_⟩
    · rw [List.map_cons, configureAll, hset]
      exact hrun
    · rwa [List.getLast?_cons, Option.getD_some]

end Bindings

end ShellLine
