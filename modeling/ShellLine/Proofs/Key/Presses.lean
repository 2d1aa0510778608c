import Mathlib.Tactic.SplitIfs
import ShellLine.Proofs.Key.Decode

/-!
# Proofs/Key/Presses — the bytes that are the press of a key

Bytes that are decoded to the press of a key have one of seven shapes (`isPress_of_decode`): a byte, a
character, an escape in front of one of the two, or one of three sequences.  What the tables of the
decoder say is then asked of single bytes only.

* `make?_of_decode` says that no bytes are decoded to an event whose parts do not fit together.
* `Decode.IsPress.isReported` says which keys there are: a character comes without modifiers only if
  it is printable.
-/

namespace ShellLine

namespace Decode

variable {b digit m final : UInt8} {key : Key} {mods : Modifiers} {e : Event}

/-! ## Tables -/

/-- The letters that name a key. -/
def letterKeys : List (UInt8 × Key) :=
  [(0x41, .up), (0x42, .down), (0x43, .right), (0x44, .left), (0x48, .home), (0x46, .endKey)]

/-- The digits that name a key. -/
def digitKeys : List (UInt8 × Key) :=
  [(0x31, .home), (0x37, .home), (0x34, .endKey), (0x38, .endKey), (0x33, .delete)]

/-- The digits that name modifiers. -/
def modifierDigits : List UInt8 := [0x32, 0x33, 0x34, 0x35, 0x36, 0x37, 0x38]

theorem mem_of_letterKey? (h : letterKey? b = some key) : (b, key) ∈ letterKeys := by
  rw [letterKey?] at h
  split_ifs at h <;> simp_all [letterKeys]

theorem mem_of_digitKey? (h : digitKey? b = some key) : (b, key) ∈ digitKeys := by
  rw [digitKey?] at h
  split_ifs at h <;> simp_all [digitKeys] <;> tauto

theorem mem_of_digitModifiers? (h : digitModifiers? b = some mods) : b ∈ modifierDigits := by
  rw [digitModifiers?] at h
  split_ifs at h <;> simp_all [modifierDigits]

theorem modifiedKey?_eq_some (h : modifiedKey? digit m final = some e) :
    ∃ mods, digitModifiers? m = some mods ∧
      ((digit = 0x31 ∧ ∃ key, letterKey? final = some key ∧ e = .press key mods) ∨
        (digit = 0x33 ∧ final = 0x7e ∧ e = .press .delete mods)) := by
  simp only [modifiedKey?, Option.bind_eq_bind, Option.bind_eq_some_iff] at h
  obtain ⟨mods, hmods, h⟩ := h
  refine ⟨mods, hmods, ?_⟩
  split_ifs at h with hone hthree
  · obtain ⟨key, hkey, he⟩ := Option.bind_eq_some_iff.1 h
    exact .inl ⟨hone, key, hkey, (Option.some.inj he).symm⟩
  · exact .inr ⟨hthree.1, hthree.2, (Option.some.inj h).symm⟩

/-! ## Single bytes and characters -/

/-- Only bytes of ASCII are presses on their own, and the escape is not. -/
theorem lt_of_byte? (h : byte? b = some e) : b < 0x80 ∧ b ≠ escByte := by
  simp only [byte?, isGraphic, Bool.and_eq_true, decide_eq_true_eq] at h
  split_ifs at h <;>
    simp only [UInt8.le_iff_toNat_le, UInt8.lt_iff_toNat_lt, ← UInt8.toNat_inj, ne_eq, escByte,
      UInt8.reduceToNat] at * <;> omega

theorem lt_of_altByte? (h : altByte? b = some e) : b < 0x80 := by
  simp only [altByte?, isGraphic, Bool.and_eq_true, decide_eq_true_eq] at h
  split_ifs at h <;>
    simp only [UInt8.le_iff_toNat_le, UInt8.lt_iff_toNat_lt, ← UInt8.toNat_inj,
      UInt8.reduceToNat] at * <;> omega

theorem printable?_eq_some_iff {data : List UInt8} {c : Char} :
    printable? data = some c ↔ Utf8.decode? data = some [c] ∧ isPrintable c = true := by
  rw [printable?]
  split
  next c' hdecode =>
    rw [hdecode]
    split_ifs with hc
    · simp only [Option.some.injEq, List.cons.injEq, and_true]
      exact ⟨fun h => ⟨h, h ▸ hc⟩, And.left⟩
    · simp only [Option.some.injEq, List.cons.injEq, and_true, false_iff, not_and]
      rintro rfl
      exact hc
  next hdecode => exact iff_of_false (Option.some_ne_none c).symm fun h => hdecode c h.1

/-- A printable character has as many bytes as the first of them says. -/
theorem length_of_printable? {s : List UInt8} {c : Char} (h : printable? (b :: s) = some c) :
    Utf8.length b = s.length + 1 :=
  Utf8.length_of_decode? (printable?_eq_some_iff.1 h).1

/-! ## Shapes -/

/-- **The bytes of a press** are a byte, a character, an escape in front of one of the two, or a
sequence: of a letter, of a digit, or of a digit and modifiers. -/
inductive IsPress (key : Key) (mods : Modifiers) : List UInt8 → Prop
  | byte {b : UInt8} (h : byte? b = some (.press key mods)) : IsPress key mods [b]
  | char {b b' : UInt8} {s : List UInt8} (hb : b ≠ escByte)
      (h : char? (b :: b' :: s) = some (.press key mods)) : IsPress key mods (b :: b' :: s)
  | altByte {b : UInt8} (hb : isIntroducer b = false) (h : altByte? b = some (.press key mods)) :
      IsPress key mods [escByte, b]
  | altChar {b b' : UInt8} {s : List UInt8} {c : Char} (hb : 0x80 ≤ b)
      (h : printable? (b :: b' :: s) = some c) (hkey : key = .char c) (hmods : mods = .onlyAlt) :
      IsPress key mods (escByte :: b :: b' :: s)
  | letter {b x : UInt8} (hb : isIntroducer b = true) (h : letterKey? x = some key)
      (hmods : mods = .empty) : IsPress key mods [escByte, b, x]
  | digit {x : UInt8} (h : digitKey? x = some key) (hmods : mods = .empty) :
      IsPress key mods [escByte, 0x5b, x, 0x7e]
  | modified {x m f : UInt8} (h : modifiedKey? x m f = some (.press key mods)) :
      IsPress key mods [escByte, 0x5b, x, 0x3b, m, f]

theorem isPress_of_afterEscape? {s : List UInt8} (h : afterEscape? s = some (.press key mods)) :
    IsPress key mods (escByte :: s) := by
  rw [afterEscape?.eq_def] at h
  split at h
  next => cases h
  next b =>
    split_ifs at h with hb
    exact .altByte (Bool.not_eq_true _ ▸ hb) h
  next b s hs =>
    split at h
    next hb =>
      obtain ⟨c, hc, he⟩ := Option.map_eq_some_iff.1 h
      obtain ⟨b', s, rfl⟩ := List.exists_cons_of_ne_nil hs
      cases he
      exact .altChar hb hc rfl rfl
    next =>
      split at h
      next x =>
        split_ifs at h with hb
        obtain ⟨k, hk, he⟩ := Option.map_eq_some_iff.1 h
        cases he
        exact .letter hb hk rfl
      next x y =>
        split_ifs at h with hxy
        obtain ⟨rfl, rfl⟩ := hxy
        obtain ⟨k, hk, he⟩ := Option.map_eq_some_iff.1 h
        cases he
        exact .digit hk rfl
      next x y m f =>
        split_ifs at h with hxy
        obtain ⟨rfl, rfl⟩ := hxy
        exact .modified h
      next => cases h

end Decode

theorem isPress_of_decode {data : List UInt8} {key : Key} {mods : Modifiers}
    (h : decode data = some (.press key mods)) : Decode.IsPress key mods data := by
  rw [decode.eq_def] at h
  cases hpaste : Decode.pasted? data with
  | some body =>
    rw [hpaste] at h
    cases h
  | none =>
    rw [hpaste] at h
    rcases data with _ | ⟨b, _ | ⟨b', s⟩⟩
    · cases h
    · exact .byte h
    · simp only at h
      split_ifs at h with hb
      · exact hb ▸ Decode.isPress_of_afterEscape? h
      · exact .char hb h

/-! ## The keys of presses -/

namespace Decode

variable {data : List UInt8}

theorem mem_named_of_letterKey? (h : letterKey? b = some key) : key ∈ Key.named := by
  have hall : ∀ p ∈ letterKeys, p.2 ∈ Key.named := by decide
  exact hall _ (mem_of_letterKey? h)

theorem mem_named_of_digitKey? (h : digitKey? b = some key) : key ∈ Key.named := by
  have hall : ∀ p ∈ digitKeys, p.2 ∈ Key.named := by decide
  exact hall _ (mem_of_digitKey? h)

theorem mem_named_of_modifiedKey? (h : modifiedKey? digit m final = some (.press key mods)) :
    key ∈ Key.named := by
  obtain ⟨_, -, ⟨-, k, hk, he⟩ | ⟨-, -, he⟩⟩ := modifiedKey?_eq_some h
  · cases he
    exact mem_named_of_letterKey? hk
  · cases he
    decide

/-- A key with a name, or a character, which is printable unless a modifier is held. -/
def IsReported (key : Key) (mods : Modifiers) : Prop :=
  key ∈ Key.named ∨ ∃ c, key = .char c ∧ (mods = .empty → isPrintable c = true)

theorem IsReported.of_ne_empty (c : Char) (h : mods ≠ .empty) : IsReported (.char c) mods :=
  .inr ⟨c, rfl, fun hmods => absurd hmods h⟩

theorem isPrintable_of_isGraphic (h : isGraphic b = true) :
    isPrintable (Char.ofNat b.toNat) = true := by
  simp only [isGraphic, Bool.and_eq_true, decide_eq_true_eq, UInt8.le_iff_toNat_le,
    UInt8.reduceToNat] at h
  have hnat : (Char.ofNat b.toNat).toNat = b.toNat := by
    rw [Char.ofNat, dif_pos (.inl (by omega))]
    rfl
  rw [isPrintable_iff_of_lt (by omega)]
  omega

theorem isReported_of_byte? (h : byte? b = some (.press key mods)) : IsReported key mods := by
  rw [byte?] at h
  split_ifs at h with hctrl hdelete hspace hgraphic <;> cases h
  · exact .of_ne_empty _ (by decide)
  · exact .inl (by decide)
  · exact .inl (by decide)
  · exact .inr ⟨_, rfl, fun _ => isPrintable_of_isGraphic hgraphic⟩

theorem isReported_of_char? (h : char? data = some (.press key mods)) : IsReported key mods := by
  obtain ⟨c, hc, he⟩ := Option.map_eq_some_iff.1 h
  split_ifs at he <;> cases he
  · exact .inl (by decide)
  · exact .inr ⟨c, rfl, fun _ => (printable?_eq_some_iff.1 hc).2⟩

theorem isReported_of_altByte? (h : altByte? b = some (.press key mods)) :
    IsReported key mods := by
  rw [altByte?] at h
  split_ifs at h <;> cases h
  · exact .of_ne_empty _ (by decide)
  · exact .inl (by decide)
  · exact .inl (by decide)
  · exact .of_ne_empty _ (by decide)

/-- **A press is that of a key with a name or of a character**, and a character that no modifier is
held with is printable. -/
theorem IsPress.isReported (h : IsPress key mods data) : IsReported key mods := by
  cases h with
  | byte h => exact isReported_of_byte? h
  | char hb h => exact isReported_of_char? h
  | altByte hb h => exact isReported_of_altByte? h
  | altChar hb h hkey hmods =>
    rw [hkey, hmods]
    exact .of_ne_empty _ (by decide)
  | letter hb h hmods => exact .inl (mem_named_of_letterKey? h)
  | digit h hmods => exact .inl (mem_named_of_digitKey? h)
  | modified h => exact .inl (mem_named_of_modifiedKey? h)

theorem IsReported.isPrintable {c : Char} (h : IsReported (.char c) .empty) :
    isPrintable c = true := by
  rcases h with hnamed | ⟨_, ⟨⟩, hc⟩
  · simp [Key.named] at hnamed
  · exact hc rfl

end Decode

/-! ## Events are well formed -/

/-- The keys with a name are found by it. -/
theorem Key.ofKind_of_mem_named :
    ∀ key ∈ Key.named, key.kind ≠ Event.pasteKind ∧ key.kind ≠ Event.charKind ∧
      key.char? = none ∧ Key.ofKind key.kind = key := by
  decide

/-- The press of a key with a name, or of a character, passes the check of its parts. -/
theorem Event.make?_press {key : Key} {mods : Modifiers} (h : Decode.IsReported key mods) :
    make? key.kind (key.char?.map ([·])) none mods.bits = .ok (.press key mods) := by
  have hbits : ¬ ((mods.bits : Int) < 0 ∨ 7 < (mods.bits : Int)) := by
    have := mods.bits_lt
    omega
  rw [make?, if_neg hbits]
  rcases h with h | ⟨c, rfl, -⟩
  · obtain ⟨hpaste, hchar, hnone, hkind⟩ := Key.ofKind_of_mem_named key h
    rw [if_neg hpaste, makePress?.eq_def, Option.isSome_none, if_neg Bool.false_ne_true,
      if_neg hchar, hnone, Option.map_none, Option.isSome_none, if_neg Bool.false_ne_true, hkind,
      Modifiers.ofBits_bits]
  · have hpaste : (Key.char c).kind ≠ pasteKind := show charKind ≠ pasteKind by decide
    rw [if_neg hpaste, makePress?.eq_def, Option.isSome_none, if_neg Bool.false_ne_true,
      show (Key.char c).kind = charKind from rfl, if_pos rfl, Modifiers.ofBits_bits]
    rfl

/-- **What is decoded passes the check of its parts.** -/
theorem make?_of_decode {data : List UInt8} {e : Event} (h : decode data = some e) :
    Event.make? e.kind (e.char?.map ([·])) e.text? e.mods.bits = .ok e := by
  cases e with
  | press key mods => exact Event.make?_press (isPress_of_decode h).isReported
  | paste text => rfl

end ShellLine
