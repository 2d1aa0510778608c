import Mathlib.Data.List.Basic
import Mathlib.Tactic.SplitIfs
import ShellLine.Key.Chord
import ShellLine.Proofs.Key.Presses
import ShellLine.Proofs.Text.Lowercase

/-!
# Proofs/Key/Chord — names of keys are read back

A chord is written as the names of its modifiers and its base with plus signs in between, and reading
cuts at the plus signs.  What can come out of reading is `Chord.IsCanonical`: the base is the plus
sign, or it holds none and is small if it is longer than a character.

* `Chord.parse?_text_iff` says that exactly the canonical chords are read back from their text.
* `Event.make?_cases` says which parts make which event, and `Event.parts_of_make?` that an event shows
  its parts.
* `canonical_names` puts both together: the name of a listed event is its own canonical spelling.
-/

namespace ShellLine

namespace Chord

/-! ## Cutting at plus signs -/

theorem pieces_eq_splitOn : ∀ s : List Char, (pieces s).1 :: (pieces s).2 = s.splitOn '+'
  | [] => rfl
  | c :: s => by
      rw [pieces, List.splitOn_cons_eq_if_modifyHead, ← pieces_eq_splitOn s]
      by_cases h : c = '+' <;> simp [h]

theorem splitOn_of_not_mem {s : List Char} (h : '+' ∉ s) : s.splitOn '+' = [s] :=
  List.splitOn_eq_singleton h

/-- The text of names with a plus sign behind each is cut into the names. -/
theorem splitOn_flatMap_append (t : List Char) :
    ∀ {names : List (List Char)}, (∀ name ∈ names, '+' ∉ name) →
      (names.flatMap (· ++ ['+']) ++ t).splitOn '+' = names ++ t.splitOn '+'
  | [], _ => rfl
  | name :: names, h => by
      obtain ⟨hname, hnames⟩ := List.forall_mem_cons.1 h
      rw [List.flatMap_cons, List.append_assoc, List.append_assoc, List.singleton_append,
        List.splitOn_append_cons_self, splitOn_of_not_mem hname, splitOn_flatMap_append t hnames]
      rfl

/-- The last piece of a text follows its last plus sign. -/
theorem exists_splitOn_eq_concat (s : List Char) :
    ∃ before last, s.splitOn '+' = before ++ [last] ∧ '+' ∉ last ∧
      (last = s ∨ ∃ front, s = front ++ '+' :: last) := by
  by_cases hmem : '+' ∈ s
  · obtain ⟨back, front, hs, hback⟩ := List.eq_append_cons_of_mem (List.mem_reverse.2 hmem)
    have hback' : '+' ∉ back.reverse := by rwa [List.mem_reverse]
    have hs' : s = front.reverse ++ '+' :: back.reverse := by
      rw [← List.reverse_reverse s, hs]
      simp
    refine ⟨front.reverse.splitOn '+', _, ?_, hback', .inr ⟨_, hs'⟩⟩
    rw [hs', List.splitOn_append_cons_self, splitOn_of_not_mem hback']
  · exact ⟨[], s, splitOn_of_not_mem hmem, hmem, .inl rfl⟩

/-! ## Reading in terms of the cut -/

theorem namesBeforePlus_eq {head : List Char} (h : head ≠ []) :
    namesBeforePlus head =
      if (head.splitOn '+').getLast? = some [] then (head.splitOn '+').dropLast
      else head.splitOn '+' := by
  rw [namesBeforePlus, if_neg h, ← pieces_eq_splitOn]

theorem parse?_concat_plus (head : List Char) :
    parse? (head ++ ['+']) = (modifiers? (namesBeforePlus head)).map fun m => ⟨m, ['+']⟩ := by
  rw [parse?, if_neg (by simp), if_pos List.getLast?_concat, List.dropLast_concat]

theorem parse?_of_splitOn {s last : List Char} {before : List (List Char)} (hne : s ≠ [])
    (hlast : s.getLast? ≠ some '+') (h : s.splitOn '+' = before ++ [last]) :
    parse? s = (modifiers? before).map fun m => ⟨m, keyName last⟩ := by
  rw [parse?, if_neg hne, if_neg hlast]
  change (modifiers? ((pieces s).1 :: (pieces s).2).dropLast).map
    (fun m => (⟨m, keyName (((pieces s).1 :: (pieces s).2).getLast?.getD [])⟩ : Chord)) = _
  rw [pieces_eq_splitOn, h, List.dropLast_concat, List.getLast?_concat, Option.getD_some]

/-! ## Canonical chords -/

/-- **A chord that reading can give**: its base is the plus sign, or a text without one that is small
if it is longer than a character. -/
def IsCanonical (c : Chord) : Prop :=
  c.base = ['+'] ∨ (c.base ≠ [] ∧ '+' ∉ c.base ∧ keyName c.base = c.base)

theorem keyName_keyName (base : List Char) : keyName (keyName base) = keyName base := by
  rw [keyName, keyName]
  by_cases h : 1 < base.length
  · have hlower : 1 < (lowercase base).length := Nat.lt_of_lt_of_le h (length_le_lowercase base)
    rw [if_pos h, if_pos hlower, lowercase_lowercase]
  · rw [if_neg h, if_neg h]

theorem keyName_ne_nil {base : List Char} (h : base ≠ []) : keyName base ≠ [] := by
  rw [keyName]
  split_ifs with hlen
  · exact List.ne_nil_of_length_pos (Nat.lt_of_lt_of_le (by omega) (length_le_lowercase base))
  · exact h

theorem plus_not_mem_keyName {base : List Char} (h : '+' ∉ base) : '+' ∉ keyName base := by
  rw [keyName]
  split_ifs
  · exact fun hmem => h (plus_mem_lowercase hmem)
  · exact h

/-- **What is read is canonical.** -/
theorem isCanonical_of_parse? {s : List Char} {c : Chord} (h : parse? s = some c) :
    c.IsCanonical := by
  by_cases hne : s = []
  · rw [parse?, if_pos hne] at h
    cases h
  by_cases hlast : s.getLast? = some '+'
  · obtain ⟨head, rfl⟩ := List.getLast?_eq_some_iff.1 hlast
    rw [parse?_concat_plus] at h
    obtain ⟨m, -, rfl⟩ := Option.map_eq_some_iff.1 h
    exact .inl rfl
  · obtain ⟨before, last, hsplit, hplus, htail⟩ := exists_splitOn_eq_concat s
    have hlast' : last ≠ [] := by
      rintro rfl
      rcases htail with rfl | ⟨front, rfl⟩
      · exact hne rfl
      · exact hlast List.getLast?_concat
    rw [parse?_of_splitOn hne hlast hsplit] at h
    obtain ⟨m, -, rfl⟩ := Option.map_eq_some_iff.1 h
    exact .inr ⟨keyName_ne_nil hlast', plus_not_mem_keyName hplus, keyName_keyName last⟩

/-! ## Written chords are read back -/

theorem plus_not_mem_names (m : Modifiers) : ∀ name ∈ m.names, '+' ∉ name := by
  obtain ⟨_ | _, _ | _, _ | _⟩ := m <;> decide

theorem modifiers?_names (m : Modifiers) : modifiers? m.names = some m := by
  obtain ⟨_ | _, _ | _, _ | _⟩ := m <;> decide +kernel

theorem namesBeforePlus_flatMap {names : List (List Char)} (h : ∀ name ∈ names, '+' ∉ name) :
    namesBeforePlus (names.flatMap (· ++ ['+'])) = names := by
  have hsplit := splitOn_flatMap_append [] h
  rw [List.append_nil, List.splitOn_nil] at hsplit
  by_cases hnil : names.flatMap (· ++ ['+']) = []
  · rw [namesBeforePlus, if_pos hnil]
    cases names with
    | nil => rfl
    | cons name names => simp at hnil
  · rw [namesBeforePlus_eq hnil, hsplit, if_pos List.getLast?_concat, List.dropLast_concat]

/-- **A chord is read back from its text exactly if it is canonical.** -/
theorem parse?_text_iff {c : Chord} : parse? c.text = some c ↔ c.IsCanonical := by
  refine ⟨isCanonical_of_parse?, fun h => ?_⟩
  have hnames := plus_not_mem_names c.mods
  rcases h with hbase | ⟨hne, hplus, hname⟩
  · rw [text, hbase, parse?_concat_plus, namesBeforePlus_flatMap hnames, modifiers?_names,
      Option.map_some, ← hbase]
  · have hsplit : c.text.splitOn '+' = c.mods.names ++ [c.base] := by
      rw [text, splitOn_flatMap_append _ hnames, splitOn_of_not_mem hplus]
    have hlast : c.text.getLast? = c.base.getLast? := by
      rw [text, List.getLast?_append_of_ne_nil _ hne]
    rw [parse?_of_splitOn (by simp [text, hne]) ?_ hsplit, modifiers?_names, Option.map_some, hname]
    rw [hlast]
    exact fun h => hplus (List.mem_of_getLast? h)

/-- Canonical chords with the same text are the same. -/
theorem IsCanonical.text_inj {c c' : Chord} (h : c.IsCanonical) (h' : c'.IsCanonical) :
    c.text = c'.text ↔ c = c' := by
  refine ⟨fun htext => ?_, congrArg text⟩
  have hread := parse?_text_iff.2 h
  rw [htext, parse?_text_iff.2 h', Option.some.injEq] at hread
  exact hread.symm

/-- A canonical chord has its text for a normal form. -/
theorem IsCanonical.normalize?_text {c : Chord} (h : c.IsCanonical) :
    normalize? c.text = some c.text := by
  rw [normalize?, parse?_text_iff.2 h, Option.map_some]

end Chord

/-! ## Events and the parts they are made of -/

theorem Modifiers.bits_ofBits {n : Int} (hlow : 0 ≤ n) (hhigh : n ≤ 7) :
    ((ofBits n).bits : Int) = n := by
  obtain rfl | rfl | rfl | rfl | rfl | rfl | rfl | rfl :
      n = 0 ∨ n = 1 ∨ n = 2 ∨ n = 3 ∨ n = 4 ∨ n = 5 ∨ n = 6 ∨ n = 7 := by omega
  all_goals decide

theorem Key.kind_ofKind (name : List Char) : (ofKind name).kind = name := by
  rw [ofKind]
  cases h : named.find? fun k => k.kind == name with
  | none => rfl
  | some k =>
    have hkind := List.find?_some h
    exact beq_iff_eq.1 hkind

theorem Key.ofKind_mem_named {name : List Char} (h : name ∈ named.map kind) :
    ofKind name ∈ named := by
  obtain ⟨key, hkey, rfl⟩ := List.mem_map.1 h
  rwa [(ofKind_of_mem_named key hkey).2.2.2]

/-- A key with a name, or a character. -/
def Key.IsListed (key : Key) : Prop := key ∈ named ∨ ∃ c, key = char c

namespace Event

variable {kind : List Char} {char? text? : Option (List Char)} {bits : Int} {e : Event}

/-- **How events are made**: a paste from a text alone, a character from one character under the name
of all characters, and any other key from its name; the last two with up to seven as modifiers. -/
theorem make?_cases (h : make? kind char? text? bits = .ok e) :
    (∃ text, kind = pasteKind ∧ char? = none ∧ text? = some text ∧ bits = 0 ∧ e = .paste text) ∨
      (0 ≤ bits ∧ bits ≤ 7 ∧ text? = none ∧ kind ≠ pasteKind ∧
        ((∃ c, kind = charKind ∧ char? = some [c] ∧ e = .press (.char c) (.ofBits bits)) ∨
          (kind ≠ charKind ∧ char? = none ∧ e = .press (.ofKind kind) (.ofBits bits)))) := by
  rw [make?] at h
  split_ifs at h with hbits hpaste
  · rw [makePaste?.eq_def] at h
    split_ifs at h with hzero
    split at h <;> cases h
    exact .inl ⟨_, hpaste, rfl, rfl, not_not.1 hzero, rfl⟩
  · refine .inr ⟨by omega, by omega, ?_⟩
    rw [makePress?.eq_def] at h
    have htext : text? = none := by
      by_contra htext
      rw [if_pos (Option.isSome_iff_ne_none.2 htext)] at h
      cases h
    rw [htext, Option.isSome_none, if_neg Bool.false_ne_true] at h
    refine ⟨htext, hpaste, ?_⟩
    by_cases hchar : kind = charKind
    · rw [if_pos hchar] at h
      split at h <;> cases h
      exact .inl ⟨_, hchar, rfl, rfl⟩
    · rw [if_neg hchar] at h
      split_ifs at h with hnone
      cases h
      exact .inr ⟨hchar, Option.not_isSome_iff_eq_none.1 hnone, rfl⟩

/-- **An event shows the parts it was made of**: events made of different parts differ. -/
theorem parts_of_make? (h : make? kind char? text? bits = .ok e) :
    e.kind = kind ∧ e.char?.map ([·]) = char? ∧ e.text? = text? ∧ (e.mods.bits : Int) = bits := by
  obtain ⟨text, rfl, rfl, rfl, rfl, rfl⟩ | ⟨hlow, hhigh, rfl, -, h⟩ := make?_cases h
  · exact ⟨rfl, rfl, rfl, rfl⟩
  · obtain ⟨c, rfl, rfl, rfl⟩ | ⟨hkind, rfl, rfl⟩ := h
    · exact ⟨rfl, rfl, rfl, Modifiers.bits_ofBits hlow hhigh⟩
    · have hchar : (Key.ofKind kind).char? = none := by
        cases hkey : Key.ofKind kind with
        | char c => exact absurd (hkey ▸ Key.kind_ofKind kind).symm hkind
        | _ => rfl
      exact ⟨Key.kind_ofKind kind, by rw [char?, hchar]; rfl, rfl,
        Modifiers.bits_ofBits hlow hhigh⟩

/-- The names of the events that a terminal reports. -/
def listedKinds : List (List Char) := Key.named.map Key.kind ++ [charKind, pasteKind]

/-- An event that some parts make under a listed name. -/
def IsListed (e : Event) : Prop :=
  ∃ kind ∈ listedKinds, ∃ char? text? bits, make? kind char? text? bits = .ok e

/-- A listed event is a paste or the press of a listed key. -/
theorem IsListed.cases (h : e.IsListed) :
    (∃ text, e = .paste text) ∨ ∃ key mods, e = .press key mods ∧ key.IsListed := by
  obtain ⟨kind, hkind, char?, text?, bits, h⟩ := h
  obtain ⟨text, -, -, -, -, rfl⟩ | ⟨-, -, -, hpaste, h⟩ := make?_cases h
  · exact .inl ⟨text, rfl⟩
  · obtain ⟨c, -, -, rfl⟩ | ⟨hchar, -, rfl⟩ := h
    · exact .inr ⟨_, _, rfl, .inr ⟨c, rfl⟩⟩
    · rw [listedKinds, List.mem_append] at hkind
      have hnamed := hkind.resolve_right (by simp [hchar, hpaste])
      exact .inr ⟨_, _, rfl, .inl (Key.ofKind_mem_named hnamed)⟩

end Event

/-! ## Names of events

A key with a name has a longer base than a character, and no base is that of a paste, so the base tells
listed keys apart. -/

namespace Key

variable {key key' : Key}

theorem base_of_mem_named : ∀ key ∈ named, '+' ∉ key.base ∧ 1 < key.base.length ∧
    Chord.keyName key.base = key.base ∧ key.base ≠ Event.pasteKind := by
  decide +kernel

theorem base_inj_of_mem_named : ∀ key ∈ named, ∀ key' ∈ named, key.base = key'.base → key = key' := by
  decide

theorem base_char_ne_of_mem_named (h : key ∈ named) (c : Char) : (char c).base ≠ key.base := by
  intro hbase
  have hlen := (base_of_mem_named key h).2.1
  rw [← hbase] at hlen
  exact absurd hlen (Nat.lt_irrefl 1)

theorem IsListed.base_ne_paste (h : key.IsListed) : key.base ≠ Event.pasteKind := by
  rcases h with hnamed | ⟨c, rfl⟩
  · exact (base_of_mem_named key hnamed).2.2.2
  · exact fun hpaste => absurd (show 1 = 5 from congrArg List.length hpaste) (by decide)

theorem IsListed.base_inj (h : key.IsListed) (h' : key'.IsListed) (hbase : key.base = key'.base) :
    key = key' := by
  rcases h with hnamed | ⟨c, rfl⟩ <;> rcases h' with hnamed' | ⟨c', rfl⟩
  · exact base_inj_of_mem_named key hnamed key' hnamed' hbase
  · exact absurd hbase.symm (base_char_ne_of_mem_named hnamed c')
  · exact absurd hbase (base_char_ne_of_mem_named hnamed' c)
  · exact congrArg char (List.cons.inj hbase).1

theorem IsListed.isCanonical (h : key.IsListed) (mods : Modifiers) :
    Chord.IsCanonical ⟨mods, key.base⟩ := by
  rcases h with hnamed | ⟨c, rfl⟩
  · obtain ⟨hplus, hlen, hname, -⟩ := base_of_mem_named key hnamed
    exact .inr ⟨List.ne_nil_of_length_pos (Nat.lt_trans Nat.zero_lt_one hlen), hplus, hname⟩
  · by_cases hc : c = '+'
    · exact .inl (by rw [hc]; rfl)
    · exact .inr ⟨List.cons_ne_nil _ _, by simpa [base] using Ne.symm hc, rfl⟩

end Key

namespace Event

variable {e e' : Event}

theorem IsListed.isCanonical_chord (h : e.IsListed) : e.chord.IsCanonical := by
  obtain ⟨text, rfl⟩ | ⟨key, mods, rfl, hkey⟩ := h.cases
  · change Chord.IsCanonical ⟨.empty, pasteKind⟩
    exact .inr (by decide +kernel)
  · exact hkey.isCanonical mods

/-- **Listed events with the same chord** are the same, or both pastes. -/
theorem IsListed.chord_eq_iff (h : e.IsListed) (h' : e'.IsListed) :
    e.chord = e'.chord ↔ e = e' ∨ (∃ text, e = .paste text) ∧ ∃ text, e' = .paste text := by
  constructor
  · intro hchord
    obtain ⟨text, rfl⟩ | ⟨key, mods, rfl, hkey⟩ := h.cases <;>
      obtain ⟨text', rfl⟩ | ⟨key', mods', rfl, hkey'⟩ := h'.cases
    · exact .inr ⟨⟨text, rfl⟩, text', rfl⟩
    · exact absurd (congrArg Chord.base hchord).symm hkey'.base_ne_paste
    · exact absurd (congrArg Chord.base hchord) hkey.base_ne_paste
    · obtain ⟨rfl, hbase⟩ := (Chord.mk.injEq ..).mp hchord
      exact .inl (by rw [hkey.base_inj hkey' hbase])
  · rintro (rfl | ⟨⟨text, rfl⟩, text', rfl⟩)
    · rfl
    · rfl

end Event

/-- **Names of keys are canonical.**  What is read from any spelling is read again from its canonical
spelling, so that finding the canonical spelling twice is finding it once, and two spellings share it
exactly if they are read as the same chord.  The name of a listed event is its own canonical spelling,
and two listed events share a name only if they are the same or both pastes. -/
theorem canonical_names :
    (∀ s c, Chord.parse? s = some c → Chord.parse? c.text = some c) ∧
    (∀ s, (Chord.normalize? s).bind Chord.normalize? = Chord.normalize? s) ∧
    (∀ s s' c c', Chord.parse? s = some c → Chord.parse? s' = some c' →
      (Chord.normalize? s = Chord.normalize? s' ↔ c = c')) ∧
    (∀ e : Event, e.IsListed → Chord.normalize? e.keyId = some e.keyId) ∧
    ∀ e e' : Event, e.IsListed → e'.IsListed →
      (e.keyId = e'.keyId ↔
        e = e' ∨ (∃ text, e = .paste text) ∧ ∃ text, e' = .paste text) := by
  refine ⟨?read, ?twice, ?shared, fun e h => h.isCanonical_chord.normalize?_text, ?events⟩
  case read =>
    intro s c h
    exact Chord.parse?_text_iff.2 (Chord.isCanonical_of_parse? h)
  case twice =>
    intro s
    cases h : Chord.parse? s with
    | none => rw [Chord.normalize?, h, Option.map_none, Option.bind_none]
    | some c =>
      have hc := Chord.isCanonical_of_parse? h
      rw [Chord.normalize?, h, Option.map_some, Option.bind_some, hc.normalize?_text]
  case shared =>
    intro s s' c c' h h'
    rw [Chord.normalize?, Chord.normalize?, h, h', Option.map_some, Option.map_some,
      Option.some.injEq]
    exact (Chord.isCanonical_of_parse? h).text_inj (Chord.isCanonical_of_parse? h')
  case events =>
    intro e e' h h'
    exact (h.isCanonical_chord.text_inj h'.isCanonical_chord).trans (h.chord_eq_iff h')

end ShellLine
