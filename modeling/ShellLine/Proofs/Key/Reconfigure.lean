import ShellLine.Proofs.Key.Bindings

/-!
# Proofs/Key/Reconfigure — a config that fails

Bindings are built anew from each config they are given, and nothing of the old ones is kept.  Where
an entry of the config gives an action no keys, the building ends: the actions have the keys of the
entries in front of it, and no key is that of an action (`Bindings.configure_failed`).

Bindings that come from configs without an error are coherent: an event that is bound to an action
stands for one.  What a config leaves that fails is not, since every action has a default key that can
be pressed; so the answers are never the old ones.
-/

namespace ShellLine

namespace Bindings

variable {b b' : Bindings} {config : Json} {fields before rest : Fields Json} {a : Action} {v : Json}

/-- Bindings that were built from a config, and given others, all of which could be used. -/
inductive IsConfigured : Bindings → Prop
  | built {config : Json} {b : Bindings} (h : ofConfig config = (b, none)) : IsConfigured b
  | configured {b b' : Bindings} {config : Json} (hb : IsConfigured b)
      (h : b.configure config = (b', none)) : IsConfigured b'

/-- An event stands for an action exactly if it is bound to one. -/
def IsCoherent (b : Bindings) : Prop :=
  ∀ e, b.actionFor? e = none ↔ ∀ a, b.binds e a = false

theorem isCoherent_of_ofConfig (h : ofConfig config = (b, none)) : b.IsCoherent := by
  rw [ofConfig] at h
  cases hfields : config.fields? with
  | none =>
    rw [hfields] at h
    cases h
  | some fields =>
    rw [hfields] at h
    dsimp only at h
    split at h
    next keys _ =>
      cases h
      exact fun e => lookup_ownersOf_claimOrder_eq_none_iff e.keyId
    next => cases h

/-- Whatever configs came before, an event stands for an action exactly if it is bound to one. -/
theorem IsConfigured.isCoherent (hb : b.IsConfigured) : b.IsCoherent := by
  cases hb with
  | built h => exact isCoherent_of_ofConfig h
  | configured _ h => exact isCoherent_of_ofConfig h

/-- Two bindings give the same answers about all names and events. -/
structure SameAnswers (b b' : Bindings) : Prop where
  keysNamed_eq : ∀ name, b.keysNamed name = b'.keysNamed name
  bindsNamed_eq : ∀ e name, b.bindsNamed e name = b'.bindsNamed e name
  actionFor?_eq : ∀ e, b.actionFor? e = b'.actionFor? e

/-- What some entries leave when the one behind them fails: the actions have the keys of these
entries, or else their default keys, and no event stands for an action. -/
structure IsLeftBy (b : Bindings) (before : Fields Json) : Prop where
  keysNamed_eq : ∀ a : Action, b.keysNamed a.name = keysWith Action.defaultKeys before a
  bindsNamed_iff : ∀ (e : Event) (a : Action),
    b.bindsNamed e a.name = true ↔ e.keyId ∈ keysWith Action.defaultKeys before a
  keysNamed_eq_nil : ∀ name, (∀ a : Action, a.name ≠ name) → b.keysNamed name = []
  bindsNamed_eq_false : ∀ e name, (∀ a : Action, a.name ≠ name) → b.bindsNamed e name = false
  actionFor?_eq_none : ∀ e, b.actionFor? e = none

theorem isLeftBy_mk (before : Fields Json) :
    IsLeftBy ⟨keysWith Action.defaultKeys before, []⟩ before where
  keysNamed_eq := keysNamed_name _
  bindsNamed_iff e a := by rw [bindsNamed_name, binds, List.contains_iff_mem]
  keysNamed_eq_nil _ := keysNamed_unknown
  bindsNamed_eq_false _ _ := bindsNamed_unknown
  actionFor?_eq_none _ := rfl

/-- An action that some entries do not name has its default keys, and no event stands for it: that is
not how coherent bindings answer. -/
theorem IsLeftBy.not_sameAnswers (h : b'.IsLeftBy before) (ha : a.name ∉ before.keys)
    (hb : b.IsCoherent) : ¬ SameAnswers b b' := by
  intro hsame
  obtain ⟨e, he⟩ := a.exists_event
  have hbound : b.bindsNamed e a.name = true := by
    rw [hsame.bindsNamed_eq, h.bindsNamed_iff, keysWith_of_not_mem ha]
    exact he
  have hfree : b.actionFor? e = none := by rw [hsame.actionFor?_eq, h.actionFor?_eq_none]
  rw [bindsNamed_name, (hb e).1 hfree a] at hbound
  exact Bool.false_ne_true hbound

/-- A config can be used, or it fails at the first of its entries that gives an action no keys. -/
theorem configure_cases (b : Bindings) (hnodup : fields.keys.Nodup) :
    ((∀ entry ∈ fields, IsUsable entry) ∧ (b.configure (.obj fields)).2 = none) ∨
      ∃ (before : Fields Json) (a : Action) (v : Json) (rest : Fields Json),
        fields = before ++ (a.name, v) :: rest ∧ (∀ entry ∈ before, IsUsable entry) ∧
        v.givesKeys = false ∧ a.name ∉ before.keys ∧
        b.configure (.obj fields) =
          (⟨keysWith Action.defaultKeys before, []⟩, some (.keyNotText a)) := by
  rcases isUsable_or_failed fields with hall | ⟨before, a, v, rest, rfl, hbefore, hv⟩
  · refine .inl ⟨hall, ?_⟩
    rw [configure, ofConfig_eq hnodup hall]
  · obtain ⟨hfront, ha⟩ := Fields.nodup_front hnodup
    exact .inr ⟨before, a, v, rest, rfl, hbefore, hv, ha, ofConfig_failed hfront hbefore hv⟩

/-- **A config fails** exactly if one of its entries gives an action no keys. -/
theorem configure_failed_iff (hnodup : fields.keys.Nodup) :
    (b.configure (.obj fields)).2 ≠ none ↔ ∃ entry ∈ fields, ¬ IsUsable entry := by
  rcases configure_cases b hnodup with
    ⟨hall, hnone⟩ | ⟨before, a, v, rest, rfl, -, hv, -, hfailed⟩
  · refine iff_of_false (not_not.2 hnone) ?_
    rintro ⟨entry, hmem, hentry⟩
    exact hentry (hall entry hmem)
  · rw [hfailed]
    refine iff_of_true (Option.some_ne_none _) ⟨(a.name, v), by simp, fun hentry => ?_⟩
    rw [hentry a a.ofName?_name] at hv
    exact Bool.false_ne_true hv.symm

/-- **What a config leaves that fails**: the first entry that gives its action no keys ends the
building.  The actions have the keys of the entries in front of it, no event stands for an action any
more, and these are never the answers from before. -/
theorem configure_failed (hb : b.IsConfigured) (hnodup : fields.keys.Nodup)
    (h : (b.configure (.obj fields)).2 ≠ none) :
    ∃ (before : Fields Json) (a : Action) (v : Json) (rest : Fields Json),
      fields = before ++ (a.name, v) :: rest ∧ (∀ entry ∈ before, IsUsable entry) ∧
      v.givesKeys = false ∧
      (b.configure (.obj fields)).2 = some (.keyNotText a) ∧
      (b.configure (.obj fields)).1.IsLeftBy before ∧
      ¬ SameAnswers b (b.configure (.obj fields)).1 := by
  rcases configure_cases b hnodup with
    ⟨-, hnone⟩ | ⟨before, a, v, rest, hfields, hbefore, hv, ha, hfailed⟩
  · exact absurd hnone h
  have hleft := isLeftBy_mk before
  refine ⟨before, a, v, rest, hfields, hbefore, hv, ?_⟩
  rw [hfailed]
  exact ⟨rfl, hleft, hleft.not_sameAnswers ha hb.isCoherent⟩

theorem isConfigured_default : IsConfigured default := @IsConfigured.built (.obj []) default rfl

/-- The default bindings are given a key for `submit`, and a number for `exit`. -/
theorem configure_failed_number_for_exit :
    let fields : Fields Json :=
      [("submit".toList, .str "ctrl+j".toList), ("exit".toList, .int 5)]
    IsConfigured default ∧ fields.keys.Nodup ∧ (default.configure (.obj fields)).2 ≠ none ∧
      ∃ (before : Fields Json) (a : Action) (v : Json) (rest : Fields Json),
        fields = before ++ (a.name, v) :: rest ∧ (∀ entry ∈ before, IsUsable entry) ∧
        v.givesKeys = false ∧
        (default.configure (.obj fields)).2 = some (.keyNotText a) ∧
        (default.configure (.obj fields)).1.IsLeftBy before ∧
        ¬ SameAnswers default (default.configure (.obj fields)).1 :=
  have hnodup : (Fields.keys [("submit".toList, Json.str "ctrl+j".toList),
      ("exit".toList, .int 5)]).Nodup := by decide
  ⟨isConfigured_default, hnodup, by decide,
    configure_failed isConfigured_default hnodup (by decide)⟩

/-- Bindings do not keep their answers where a config fails: `ctrl+d` is `exit` no more. -/
theorem not_forall_sameAnswers_configure :
    ¬ ∀ (b : Bindings) (fields : Fields Json), b.IsConfigured → fields.keys.Nodup →
      (b.configure (.obj fields)).2 ≠ none → SameAnswers b (b.configure (.obj fields)).1 := by
  intro h
  have hsame := h default [("exit".toList, .int 5)] isConfigured_default (by decide) (by decide)
  have hexit := hsame.actionFor?_eq (.press (.char 'd') .onlyCtrl)
  revert hexit
  decide

end Bindings

end ShellLine
