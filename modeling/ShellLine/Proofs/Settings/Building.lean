import ShellLine.Proofs.Key.Bindings
import ShellLine.Settings

/-!
# Proofs/Settings/Building — which settings make an editor

The three settings of an editor are looked at one after the other, and the first that is of no use
ends the building.  `Settings.Rejects` lists the causes: three of them are values of the wrong kind,
and the error tells the setting and its value; the fourth is an entry of the key bindings that gives
a known action no keys, and that is found only where a key is read as a text.

* `Settings.buildEditor?_eq_error_iff` says that these are the causes, and the only ones.
* `Settings.buildEditor?_ofFields` says of any object which of the outcomes it has.
-/

namespace ShellLine

namespace Json

/-- Does the value say which characters are boundaries: null, a text, or a list of texts of one
character? -/
def SaysCharacters : Json → Prop
  | .null => True
  | .str _ => True
  | .arr items => ∃ cs : List Char, items = cs.map fun c => .str [c]
  | _ => False

/-- Does the value say how many lines are kept: null, or a whole number that is not negative? -/
def SaysCount : Json → Prop
  | .null => True
  | .int n => 0 ≤ n
  | _ => False

/-- May the value hold key bindings: null, or an object? -/
def IsTable : Json → Prop
  | .null => True
  | .obj _ => True
  | _ => False

/-- Does the value say what keys do: null, or an object that gives keys to each known action that it
names? -/
def SaysKeys : Json → Prop
  | .null => True
  | .obj config => ∀ entry ∈ config, Bindings.IsUsable entry
  | _ => False

theorem SaysKeys.isTable {v : Json} (h : v.SaysKeys) : v.IsTable := by
  cases v with
  | null => trivial
  | obj config => trivial
  | _ => exact h

end Json

/-! ## Key bindings -/

namespace Bindings

variable {keys : Action → List (List Char)} {config before rest : Fields Json} {a : Action}
  {v : Json}

theorem override_of_isUsable (h : ∀ entry ∈ config, IsUsable entry) :
    (override keys config).2 = none := by
  have happend : override keys (config ++ []) = override (override keys config).1 [] :=
    override_append h
  rw [List.append_nil] at happend
  rw [happend]
  rfl

/-- A config of usable entries makes bindings. -/
theorem exists_ofConfig? (h : ∀ entry ∈ config, IsUsable entry) :
    ∃ b, ofConfig? (.obj config) = .ok b := by
  have hnone : (override Action.defaultKeys config).2 = none := override_of_isUsable h
  rcases hover : override Action.defaultKeys config with ⟨keys, error?⟩
  rw [hover] at hnone
  obtain rfl : error? = none := hnone
  refine ⟨⟨keys, ownersOf keys (claimOrder config)⟩, ?_⟩
  rw [ofConfig?, ofConfig, Json.fields?]
  simp only [hover]

/-- The first entry that gives a known action no keys ends the building. -/
theorem ofConfig?_failed (h : ∀ entry ∈ before, IsUsable entry) (hv : v.givesKeys = false) :
    ofConfig? (.obj (before ++ (a.name, v) :: rest)) = .error (.keyNotText a) := by
  have hover : override Action.defaultKeys (before ++ (a.name, v) :: rest) =
      override (override Action.defaultKeys before).1 ((a.name, v) :: rest) := override_append h
  rw [override_cons_failed a.ofName?_name hv] at hover
  rw [ofConfig?, ofConfig, Json.fields?]
  simp only [hover]

end Bindings

/-- Is the error that a setting has a value of the wrong kind?  What is wrong with an entry of the
key bindings is not looked for: it shows where something that is no text is read as one. -/
def SettingsError.IsInvalidValue : SettingsError → Prop
  | .binding _ => False
  | _ => True

namespace Settings

variable {s : Settings} {e : SettingsError}

/-! ## Single settings -/

theorem chars?_eq_some_iff {items : List Json} {cs : List Char} :
    chars? items = some cs ↔ items = cs.map fun c => .str [c] := by
  constructor
  · intro h
    induction items using chars?.induct generalizing cs with
    | case1 =>
      obtain rfl : [] = cs := Option.some.inj h
      rfl
    | case2 c vs ih =>
      rw [chars?, Option.map_eq_some_iff] at h
      obtain ⟨tail, htail, rfl⟩ := h
      rw [ih htail, List.map_cons]
    | case3 items hnil hcons =>
      rw [chars?] at h
      · cases h
      · exact hnil
      · exact hcons
  · rintro rfl
    induction cs with
    | nil => rfl
    | cons c cs ih => rw [List.map_cons, chars?, ih, Option.map_some]

theorem exists_wordChars? (h : (s.value "wordChars").SaysCharacters) :
    ∃ cs, s.wordChars? = .ok cs := by
  rw [wordChars?]
  cases hv : s.value "wordChars" with
  | null => exact ⟨_, rfl⟩
  | str cs => exact ⟨_, rfl⟩
  | arr items =>
    rw [hv] at h
    obtain ⟨cs, hcs⟩ := h
    refine ⟨cs, ?_⟩
    dsimp only
    rw [chars?_eq_some_iff.2 hcs]
  | _ =>
    rw [hv] at h
    exact h.elim

theorem wordChars?_failed (h : ¬(s.value "wordChars").SaysCharacters) :
    s.wordChars? = .error (.wordChars (s.value "wordChars")) := by
  rw [wordChars?]
  cases hv : s.value "wordChars" with
  | null =>
    rw [hv] at h
    exact absurd trivial h
  | str cs =>
    rw [hv] at h
    exact absurd trivial h
  | arr items =>
    rw [hv] at h
    dsimp only
    cases hchars : chars? items with
    | none => rfl
    | some cs => exact absurd ⟨cs, chars?_eq_some_iff.1 hchars⟩ h
  | _ => rfl

theorem exists_historySize? (h : (s.value "historySize").SaysCount) :
    ∃ n, s.historySize? = .ok n := by
  rw [historySize?]
  cases hv : s.value "historySize" with
  | null => exact ⟨_, rfl⟩
  | int n =>
    rw [hv] at h
    exact ⟨n, if_neg (Int.not_lt.2 h)⟩
  | _ =>
    rw [hv] at h
    exact h.elim

theorem historySize?_failed (h : ¬(s.value "historySize").SaysCount) :
    s.historySize? = .error (.historySize (s.value "historySize")) := by
  rw [historySize?]
  cases hv : s.value "historySize" with
  | null =>
    rw [hv] at h
    exact absurd trivial h
  | int n =>
    rw [hv] at h
    exact if_pos (Int.not_le.1 h)
  | _ => rfl

theorem keyConfig?_failed (h : ¬(s.value "keybindings").IsTable) :
    s.keyConfig? = .error (.keybindings (s.value "keybindings")) := by
  rw [keyConfig?]
  cases hv : s.value "keybindings" with
  | null =>
    rw [hv] at h
    exact absurd trivial h
  | obj config =>
    rw [hv] at h
    exact absurd trivial h
  | _ => rfl

theorem keyConfig?_of_null (h : s.value "keybindings" = .null) : s.keyConfig? = .ok [] := by
  rw [keyConfig?, h]

theorem keyConfig?_of_obj {config : Fields Json} (h : s.value "keybindings" = .obj config) :
    s.keyConfig? = .ok config := by
  rw [keyConfig?, h]

/-! ## All settings -/

/-- Why settings make no editor.  They are looked at in order: boundaries of words, size of the
history, key bindings, and of the key bindings one entry after the other. -/
inductive Rejects (s : Settings) : SettingsError → Prop
  | wordChars (h : ¬(s.value "wordChars").SaysCharacters) :
      s.Rejects (.wordChars (s.value "wordChars"))
  | historySize (hchars : (s.value "wordChars").SaysCharacters)
      (h : ¬(s.value "historySize").SaysCount) :
      s.Rejects (.historySize (s.value "historySize"))
  | keybindings (hchars : (s.value "wordChars").SaysCharacters)
      (hcount : (s.value "historySize").SaysCount) (h : ¬(s.value "keybindings").IsTable) :
      s.Rejects (.keybindings (s.value "keybindings"))
  | binding {before rest : Fields Json} {a : Action} {v : Json}
      (hchars : (s.value "wordChars").SaysCharacters)
      (hcount : (s.value "historySize").SaysCount)
      (hconfig : s.value "keybindings" = .obj (before ++ (a.name, v) :: rest))
      (hbefore : ∀ entry ∈ before, Bindings.IsUsable entry) (h : v.givesKeys = false) :
      s.Rejects (.binding (.keyNotText a))

/-- Do the settings say all that an editor needs? -/
structure SaysEditor (s : Settings) : Prop where
  wordChars : (s.value "wordChars").SaysCharacters
  historySize : (s.value "historySize").SaysCount
  keybindings : (s.value "keybindings").SaysKeys

/-- Behind good boundaries and a good size it is the key bindings that decide. -/
theorem buildEditor?_of_wordChars_of_historySize
    (hchars : (s.value "wordChars").SaysCharacters) (hcount : (s.value "historySize").SaysCount) :
    ∃ cs n, s.buildEditor? = s.keyConfig?.bind fun config =>
      match Bindings.ofConfig? (.obj config) with
      | .error e => .error (.binding e)
      | .ok bindings => .ok (.fresh cs (.empty (some n)) (some bindings)) := by
  obtain ⟨cs, hcs⟩ := exists_wordChars? hchars
  obtain ⟨n, hn⟩ := exists_historySize? hcount
  refine ⟨cs, n, ?_⟩
  rw [buildEditor?, hcs, hn]
  rfl

theorem SaysEditor.exists_buildEditor? (h : s.SaysEditor) : ∃ ed, s.buildEditor? = .ok ed := by
  obtain ⟨cs, n, hbuild⟩ := buildEditor?_of_wordChars_of_historySize h.wordChars h.historySize
  have hconfig : ∃ config b, s.keyConfig? = .ok config ∧ Bindings.ofConfig? (.obj config) = .ok b := by
    have hkeys := h.keybindings
    cases hv : s.value "keybindings" with
    | null =>
      have hempty : ∀ entry ∈ ([] : Fields Json), Bindings.IsUsable entry := nofun
      obtain ⟨b, hb⟩ := Bindings.exists_ofConfig? hempty
      exact ⟨[], b, keyConfig?_of_null hv, hb⟩
    | obj config =>
      rw [hv] at hkeys
      obtain ⟨b, hb⟩ := Bindings.exists_ofConfig? hkeys
      exact ⟨config, b, keyConfig?_of_obj hv, hb⟩
    | _ =>
      rw [hv] at hkeys
      exact hkeys.elim
  obtain ⟨config, b, hkeyConfig, hb⟩ := hconfig
  refine ⟨.fresh cs (.empty (some n)) (some b), ?_⟩
  rw [hbuild, hkeyConfig]
  dsimp only [Except.bind]
  rw [hb]

theorem Rejects.buildEditor?_eq (h : s.Rejects e) : s.buildEditor? = .error e := by
  cases h with
  | wordChars h =>
    rw [buildEditor?, wordChars?_failed h]
    rfl
  | historySize hchars h =>
    obtain ⟨cs, hcs⟩ := exists_wordChars? hchars
    rw [buildEditor?, hcs, historySize?_failed h]
    rfl
  | keybindings hchars hcount h =>
    obtain ⟨cs, n, hbuild⟩ := buildEditor?_of_wordChars_of_historySize hchars hcount
    rw [hbuild, keyConfig?_failed h]
    rfl
  | binding hchars hcount hconfig hbefore h =>
    obtain ⟨cs, n, hbuild⟩ := buildEditor?_of_wordChars_of_historySize hchars hcount
    rw [hbuild, keyConfig?_of_obj hconfig]
    dsimp only [Except.bind]
    rw [Bindings.ofConfig?_failed hbefore h]

/-- Settings say all that an editor needs, or there is a cause why they do not. -/
theorem saysEditor_or_rejects (s : Settings) : s.SaysEditor ∨ ∃ e, s.Rejects e := by
  by_cases hchars : (s.value "wordChars").SaysCharacters
  case neg => exact .inr ⟨_, .wordChars hchars⟩
  by_cases hcount : (s.value "historySize").SaysCount
  case neg => exact .inr ⟨_, .historySize hchars hcount⟩
  by_cases htable : (s.value "keybindings").IsTable
  case neg => exact .inr ⟨_, .keybindings hchars hcount htable⟩
  cases hv : s.value "keybindings" with
  | null => exact .inl ⟨hchars, hcount, by rw [hv]; trivial⟩
  | obj config =>
    rcases Bindings.isUsable_or_failed config with hall | ⟨before, a, v, rest, rfl, hbefore, h⟩
    · exact .inl ⟨hchars, hcount, by rw [hv]; exact hall⟩
    · exact .inr ⟨_, .binding hchars hcount hv hbefore h⟩
  | _ =>
    rw [hv] at htable
    exact htable.elim

/-- **Why no editor is built**: the causes of `Rejects`, and no others. -/
theorem buildEditor?_eq_error_iff : s.buildEditor? = .error e ↔ s.Rejects e := by
  refine ⟨fun h => ?_, Rejects.buildEditor?_eq⟩
  rcases saysEditor_or_rejects s with hgood | ⟨e', he'⟩
  · obtain ⟨ed, hed⟩ := hgood.exists_buildEditor?
    rw [hed] at h
    cases h
  · have heq := he'.buildEditor?_eq
    rw [h] at heq
    cases heq
    exact he'

theorem rejects_isInvalidValue_iff :
    (∃ e, s.Rejects e ∧ e.IsInvalidValue) ↔
      ¬((s.value "wordChars").SaysCharacters ∧ (s.value "historySize").SaysCount ∧
        (s.value "keybindings").IsTable) := by
  constructor
  · rintro ⟨e, he, hkind⟩ ⟨hchars, hcount, htable⟩
    cases he with
    | wordChars h => exact h hchars
    | historySize _ h => exact h hcount
    | keybindings _ _ h => exact h htable
    | binding => exact hkind
  · intro h
    rcases saysEditor_or_rejects s with hgood | ⟨e, he⟩
    · exact absurd ⟨hgood.wordChars, hgood.historySize, hgood.keybindings.isTable⟩ h
    · refine ⟨e, he, ?_⟩
      cases he with
      | binding hchars hcount hconfig => exact h ⟨hchars, hcount, by rw [hconfig]; trivial⟩
      | _ => trivial

theorem rejects_binding_iff :
    (∃ e, s.Rejects e ∧ ¬e.IsInvalidValue) ↔
      (s.value "wordChars").SaysCharacters ∧ (s.value "historySize").SaysCount ∧
        (s.value "keybindings").IsTable ∧ ¬(s.value "keybindings").SaysKeys := by
  constructor
  · rintro ⟨e, he, hkind⟩
    cases he with
    | @binding before rest a v hchars hcount hconfig hbefore h =>
      rw [hconfig]
      refine ⟨hchars, hcount, trivial, fun hkeys => ?_⟩
      have husable := hkeys (a.name, v) (by simp) a a.ofName?_name
      rw [h] at husable
      exact Bool.false_ne_true husable
    | _ => exact absurd trivial hkind
  · rintro ⟨hchars, hcount, htable, hkeys⟩
    rcases saysEditor_or_rejects s with hgood | ⟨e, he⟩
    · exact absurd hgood.keybindings hkeys
    · refine ⟨e, he, fun hkind => ?_⟩
      exact rejects_isInvalidValue_iff.1 ⟨e, he, hkind⟩ ⟨hchars, hcount, htable⟩

/-- **Which settings make an editor**, for any object of settings that stand in no file: exactly those
that say what boundaries of words, size of the history and key bindings are.  A value of the wrong
kind is reported as such; where all three are of the right kind, and an entry of the key bindings
gives a known action something other than keys, the failure is of another kind. -/
theorem buildEditor?_ofFields (fields : Fields Json) :
    let s := ofFields fields
    ((∃ ed, s.buildEditor? = .ok ed) ↔
      (s.value "wordChars").SaysCharacters ∧ (s.value "historySize").SaysCount ∧
        (s.value "keybindings").SaysKeys) ∧
    ((∃ e, s.buildEditor? = .error e ∧ e.IsInvalidValue) ↔
      ¬((s.value "wordChars").SaysCharacters ∧ (s.value "historySize").SaysCount ∧
        (s.value "keybindings").IsTable)) ∧
    ((∃ e, s.buildEditor? = .error e ∧ ¬e.IsInvalidValue) ↔
      (s.value "wordChars").SaysCharacters ∧ (s.value "historySize").SaysCount ∧
        (s.value "keybindings").IsTable ∧ ¬(s.value "keybindings").SaysKeys) := by
  intro s
  simp only [buildEditor?_eq_error_iff]
  refine ⟨⟨?_, ?_⟩, rejects_isInvalidValue_iff, rejects_binding_iff⟩
  · rintro ⟨ed, hed⟩
    rcases saysEditor_or_rejects s with hgood | ⟨e, he⟩
    · exact ⟨hgood.wordChars, hgood.historySize, hgood.keybindings⟩
    · rw [he.buildEditor?_eq] at hed
      cases hed
  · rintro ⟨hchars, hcount, hkeys⟩
    exact SaysEditor.exists_buildEditor? ⟨hchars, hcount, hkeys⟩

/-- Not every failure is a setting with a value of the wrong kind: here a number is given as the key
of `exit`. -/
theorem not_forall_isInvalidValue :
    ¬ ∀ (fields : Fields Json) (e : SettingsError),
      (ofFields fields).buildEditor? = .error e → e.IsInvalidValue := by
  intro h
  have hrejects : (ofFields [("keybindings".toList, .obj [("exit".toList, .int 5)])]).Rejects
      (.binding (.keyNotText .exit)) :=
    @Rejects.binding _ [] [] .exit (.int 5) trivial trivial rfl (by simp) rfl
  exact h _ _ hrejects.buildEditor?_eq

end Settings

end ShellLine
