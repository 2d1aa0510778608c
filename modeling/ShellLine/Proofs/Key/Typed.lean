import ShellLine.Proofs.Key.Presses
import ShellLine.Proofs.Text.WellFormed

/-!
# Proofs/Key/Typed — which bytes type a character, and which are a paste

A character is typed by its own bytes, by an escape in front of them for alt, by one control byte, or
by an escape in front of a control byte (`Decode.Types`).  No other bytes are decoded to a character
(`decode_eq_char_iff`): other spellings of a character are no text, and an escape with a lone `[` or
`O` is the beginning of a sequence.  A paste is decoded from its marks and what stands between them
(`decode_eq_paste_iff`).
-/

namespace ShellLine

namespace Decode

variable {b : UInt8} {c : Char} {mods : Modifiers} {data : List UInt8}

/-- **The bytes that type a character** with some modifiers. -/
inductive Types (c : Char) : Modifiers → List UInt8 → Prop
  | plain (hc : isPrintable c = true) (hspace : c ≠ ' ') : Types c .empty (Utf8.encodeChar c)
  | alt (hc : isPrintable c = true) (hspace : c ≠ ' ') (hbracket : c ≠ '[') (ho : c ≠ 'O') :
      Types c .onlyAlt (escByte :: Utf8.encodeChar c)
  | ctrl {b : UInt8} (hb : b ≤ 0x1a) (hc : c = ctrlLetter b) : Types c .onlyCtrl [b]
  | ctrlAlt {b : UInt8} (hlow : 1 ≤ b) (hhigh : b ≤ 0x1a) (hc : c = ctrlLetter b) :
      Types c (Modifiers.onlyCtrl.union .onlyAlt) [escByte, b]

/-! ## Characters and their bytes

A printable character of ASCII is the space or one graphic byte; every other character has more than
one byte, the first of them beyond ASCII. -/

theorem isGraphic_iff : isGraphic b = true ↔ 0x21 ≤ b.toNat ∧ b.toNat ≤ 0x7e := by
  simp [isGraphic, UInt8.le_iff_toNat_le]

theorem isIntroducer_eq_false_iff : isIntroducer b = false ↔ b.toNat ≠ 0x5b ∧ b.toNat ≠ 0x4f := by
  simp [isIntroducer, ← UInt8.toNat_inj]

theorem charOfNat_ne {k : Char} (h : b.toNat ≠ k.toNat) : Char.ofNat b.toNat ≠ k := by
  rintro rfl
  exact h (Utf8.toNat_charOfNat_toNat b).symm

/-- A printable character of ASCII other than the space is a graphic byte. -/
theorem exists_isGraphic (hlt : c.toNat < 0x80) (hc : isPrintable c = true) (hspace : c ≠ ' ') :
    ∃ b, isGraphic b = true ∧ Utf8.encodeChar c = [b] ∧ c = Char.ofNat b.toNat := by
  have hrange := (isPrintable_iff_of_lt hlt).1 hc
  have hnat : (UInt8.ofNat c.toNat).toNat = c.toNat := Utf8.toNat_ofNat (by omega)
  have hne : c.toNat ≠ 0x20 := fun h => hspace (Char.toNat_inj.1 h)
  refine ⟨_, isGraphic_iff.2 ?_, Utf8.encodeChar_one hlt, ?_⟩
  · rw [hnat]
    omega
  · rw [hnat, Char.ofNat_toNat]

/-- The bytes of the character of a graphic byte are that byte. -/
theorem encodeChar_of_isGraphic (h : isGraphic b = true) :
    Utf8.encodeChar (Char.ofNat b.toNat) = [b] := by
  have hrange := isGraphic_iff.1 h
  refine Utf8.encodeChar_ofNat (UInt8.lt_iff_toNat_lt.2 ?_)
  change b.toNat < 128
  omega

theorem charOfNat_ne_space (h : isGraphic b = true) : Char.ofNat b.toNat ≠ ' ' :=
  charOfNat_ne fun heq => absurd (heq ▸ (isGraphic_iff.1 h).1) (by decide)

theorem printable?_eq_some_iff_eq_encodeChar :
    printable? data = some c ↔ data = Utf8.encodeChar c ∧ isPrintable c = true := by
  have hsingle : Utf8.encode [c] = Utf8.encodeChar c := List.append_nil _
  rw [printable?_eq_some_iff, Utf8.decode?_eq_some_iff_eq_encode, hsingle]

/-! ## Bytes that type a character are decoded to it -/

/-- Behind an escape only a `[` goes on as a paste does. -/
theorem decode_escape_cons {s : List UInt8} (hb : b.toNat ≠ 0x5b) :
    decode (escByte :: b :: s) = afterEscape? (b :: s) := by
  have hpaste : pasted? (escByte :: b :: s) = none := by
    refine if_neg fun h => hb ?_
    have hprefix := List.isPrefixOf_iff_prefix.1 h.2.1
    rw [pasteStart, List.cons_prefix_cons, List.cons_prefix_cons] at hprefix
    rw [← hprefix.2.1]
    rfl
  rw [decode.eq_def, hpaste]
  exact if_pos rfl

theorem decode_escape_singleton (h : isIntroducer b = false) :
    decode [escByte, b] = altByte? b := by
  rw [decode_escape_cons (isIntroducer_eq_false_iff.1 h).1, afterEscape?, h,
    if_neg Bool.false_ne_true]

/-- Behind an escape a byte beyond ASCII begins a character. -/
theorem decode_escape_of_le {b' : UInt8} {s : List UInt8} (hb : 0x80 ≤ b.toNat) :
    decode (escByte :: b :: b' :: s) =
      (printable? (b :: b' :: s)).map fun c => .press (.char c) .onlyAlt := by
  have hle : 0x80 ≤ b := UInt8.le_iff_toNat_le.2 hb
  rw [decode_escape_cons (by omega), afterEscape?.eq_def]
  exact if_pos hle

theorem decode_alt (hc : isPrintable c = true) (hspace : c ≠ ' ') (hbracket : c ≠ '[')
    (ho : c ≠ 'O') :
    decode (escByte :: Utf8.encodeChar c) = some (.press (.char c) .onlyAlt) := by
  by_cases hlt : c.toNat < 0x80
  · obtain ⟨b, hgraphic, hbytes, rfl⟩ := exists_isGraphic hlt hc hspace
    have hnat := Utf8.toNat_charOfNat_toNat b
    have hplain : isIntroducer b = false := isIntroducer_eq_false_iff.2
      ⟨fun h => hbracket (Char.toNat_inj.1 (hnat.trans h)),
        fun h => ho (Char.toNat_inj.1 (hnat.trans h))⟩
    rw [hbytes, decode_escape_singleton hplain, altByte?, if_pos hgraphic]
  · obtain ⟨b, b', s, hbytes, hb⟩ := Utf8.exists_encodeChar_cons_cons (Nat.le_of_not_lt hlt)
    rw [hbytes, decode_escape_of_le hb, ← hbytes,
      printable?_eq_some_iff_eq_encodeChar.2 ⟨rfl, hc⟩]
    rfl

theorem decode_ctrlAlt (hlow : 1 ≤ b) (hhigh : b ≤ 0x1a) :
    decode [escByte, b] =
      some (.press (.char (ctrlLetter b)) (Modifiers.onlyCtrl.union .onlyAlt)) := by
  have hle : b.toNat ≤ 26 := UInt8.le_iff_toNat_le.1 hhigh
  have hgraphic : ¬ isGraphic b = true := by
    rw [isGraphic_iff]
    omega
  have hne {k : UInt8} (hk : 26 < k.toNat) : b ≠ k := by
    rintro rfl
    omega
  rw [decode_escape_singleton (isIntroducer_eq_false_iff.2 (by omega)), altByte?, if_neg hgraphic,
    if_neg (hne (by decide)), if_neg (hne (by decide)), if_pos ⟨hlow, hhigh⟩]

theorem Types.decode (h : Types c mods data) : decode data = some (.press (.char c) mods) := by
  cases h with
  | plain hc hspace => rw [decode_encodeChar hc, Event.ofChar, if_neg hspace]
  | alt hc hspace hbracket ho => exact decode_alt hc hspace hbracket ho
  | ctrl hb hc => rw [decode_singleton, byte?, if_pos hb, hc]
  | ctrlAlt hlow hhigh hc => rw [decode_ctrlAlt hlow hhigh, hc]

/-! ## Bytes that are decoded to a character type it

The shapes of a press (`IsPress`) that can be a character are looked at one by one. -/

theorem types_of_byte? (h : byte? b = some (.press (.char c) mods)) : Types c mods [b] := by
  rw [byte?] at h
  split_ifs at h with hctrl hdelete hspace hgraphic <;> cases h
  · exact .ctrl hctrl rfl
  · rw [← encodeChar_of_isGraphic hgraphic]
    exact .plain (isPrintable_of_isGraphic hgraphic) (charOfNat_ne_space hgraphic)

theorem types_of_altByte? (hb : isIntroducer b = false)
    (h : altByte? b = some (.press (.char c) mods)) : Types c mods [escByte, b] := by
  rw [altByte?] at h
  split_ifs at h with hgraphic hdelete hspace hctrl <;> cases h
  · have hne := isIntroducer_eq_false_iff.1 hb
    rw [← encodeChar_of_isGraphic hgraphic]
    exact .alt (isPrintable_of_isGraphic hgraphic) (charOfNat_ne_space hgraphic)
      (charOfNat_ne hne.1) (charOfNat_ne hne.2)
  · exact .ctrlAlt hctrl.1 hctrl.2 rfl

theorem types_of_char? (h : char? data = some (.press (.char c) mods)) : Types c mods data := by
  obtain ⟨c', hc, he⟩ := Option.map_eq_some_iff.1 h
  obtain ⟨rfl, hprintable⟩ := printable?_eq_some_iff_eq_encodeChar.1 hc
  split_ifs at he with hspace <;> cases he
  exact .plain hprintable hspace

theorem types_of_printable? {b' : UInt8} {s : List UInt8}
    (h : printable? (b :: b' :: s) = some c) : Types c .onlyAlt (escByte :: b :: b' :: s) := by
  obtain ⟨hbytes, hc⟩ := printable?_eq_some_iff_eq_encodeChar.1 h
  have hne {k : Char} (hk : k.toNat < 0x80) : c ≠ k := by
    rintro rfl
    rw [Utf8.encodeChar_one hk] at hbytes
    cases hbytes
  rw [hbytes]
  exact .alt hc (hne (by decide)) (hne (by decide)) (hne (by decide))

theorem IsPress.types (h : IsPress (.char c) mods data) : Types c mods data := by
  have hnamed : Key.char c ∉ Key.named := by simp [Key.named]
  cases h with
  | byte h => exact types_of_byte? h
  | char hb h => exact types_of_char? h
  | altByte hb h => exact types_of_altByte? hb h
  | altChar hb h hkey hmods =>
    cases hkey
    rw [hmods]
    exact types_of_printable? h
  | letter hb h hmods => exact absurd (mem_named_of_letterKey? h) hnamed
  | digit h hmods => exact absurd (mem_named_of_digitKey? h) hnamed
  | modified h => exact absurd (mem_named_of_modifiedKey? h) hnamed

end Decode

/-- **Bytes are decoded to a character with modifiers exactly if they type it.** -/
theorem decode_eq_char_iff {data : List UInt8} {c : Char} {mods : Modifiers} :
    decode data = some (.press (.char c) mods) ↔ Decode.Types c mods data :=
  ⟨fun h => (isPress_of_decode h).types, Decode.Types.decode⟩

/-! ## Pastes

Marks that do not overlap and stand at both ends are those of a paste, and nothing else is decoded to
one. -/

theorem Decode.pasted?_eq_some_iff {data body : List UInt8} :
    pasted? data = some body ↔ data = pasteSequence body := by
  constructor
  · intro h
    have hbody : ∃ body, data = pasteSequence body := by
      rw [pasted?] at h
      split_ifs at h with hmarks
      obtain ⟨hlen, hstart, hend⟩ := hmarks
      obtain ⟨rest, rfl⟩ := List.isPrefixOf_iff_prefix.1 hstart
      have hrest : pasteEnd.length ≤ rest.length := by
        rw [List.length_append] at hlen
        change 12 ≤ 6 + rest.length at hlen
        change 6 ≤ rest.length
        omega
      obtain ⟨body, rfl⟩ := List.suffix_of_suffix_length_le (List.isSuffixOf_iff_suffix.1 hend)
        (List.suffix_append pasteStart rest) hrest
      exact ⟨body, (List.append_assoc _ _ _).symm⟩
    obtain ⟨body, rfl⟩ := hbody
    rw [pasted?_pasteSequence, Option.some.injEq] at h
    rw [h]
  · rintro rfl
    exact pasted?_pasteSequence body

/-- What follows an escape is no paste. -/
theorem Decode.text?_of_afterEscape? {s : List UInt8} {e : Event}
    (h : afterEscape? s = some e) : e.text? = none := by
  have hpress {key : Option Key} (h : key.map (.press · .empty) = some e) : e.text? = none := by
    obtain ⟨_, -, rfl⟩ := Option.map_eq_some_iff.1 h
    rfl
  rw [afterEscape?.eq_def] at h
  split at h
  next => cases h
  next b =>
    rw [altByte?] at h
    split_ifs at h <;> cases h <;> rfl
  next b s hs =>
    split at h
    next =>
      obtain ⟨_, -, rfl⟩ := Option.map_eq_some_iff.1 h
      rfl
    next =>
      split at h
      next =>
        split_ifs at h
        exact hpress h
      next =>
        split_ifs at h
        exact hpress h
      next =>
        split_ifs at h
        obtain ⟨_, -, ⟨-, _, -, rfl⟩ | ⟨-, -, rfl⟩⟩ := modifiedKey?_eq_some h <;> rfl
      next => cases h

/-- Bytes without the marks are no paste. -/
theorem text?_of_decode {data : List UInt8} {e : Event} (hpaste : Decode.pasted? data = none)
    (h : decode data = some e) : e.text? = none := by
  rw [decode.eq_def, hpaste] at h
  simp only at h
  split at h
  next => cases h
  next b =>
    rw [Decode.byte?] at h
    split_ifs at h <;> cases h <;> rfl
  next b s hs =>
    split_ifs at h
    · exact Decode.text?_of_afterEscape? h
    · obtain ⟨c, -, rfl⟩ := Option.map_eq_some_iff.1 h
      split_ifs <;> rfl

/-- **Bytes are decoded to a paste exactly if they are its text between the marks.** -/
theorem decode_eq_paste_iff {data : List UInt8} {text : List Char} :
    decode data = some (.paste text) ↔
      ∃ body, data = pasteSequence body ∧ Utf8.decodeLossy body = text := by
  constructor
  · intro h
    cases hpaste : Decode.pasted? data with
    | some body =>
      obtain rfl := Decode.pasted?_eq_some_iff.1 hpaste
      rw [decode_pasteSequence, Option.some.injEq, Event.paste.injEq] at h
      exact ⟨body, rfl, h⟩
    | none => exact absurd (text?_of_decode hpaste h) (Option.some_ne_none text)
  · rintro ⟨body, rfl, rfl⟩
    exact decode_pasteSequence body

/-! ## The images of all bytes

The four ways to type a character in terms of bytes alone, and beside them the pastes. -/

namespace Decode

variable {data : List UInt8} {c : Char}

theorem types_empty_iff :
    Types c .empty data ↔ data = Utf8.encodeChar c ∧ isPrintable c = true ∧ c ≠ ' ' := by
  constructor
  · rintro ⟨⟩
    exact ⟨rfl, ‹_›, ‹_›⟩
  · rintro ⟨rfl, hc, hspace⟩
    exact .plain hc hspace

theorem types_onlyAlt_iff :
    Types c .onlyAlt data ↔ data = escByte :: Utf8.encodeChar c ∧ isPrintable c = true ∧ c ≠ ' ' ∧
      data ≠ [escByte, 0x5b] ∧ data ≠ [escByte, 0x4f] := by
  have hchar {k : Char} {b : UInt8} (hk : Utf8.encodeChar k = [b]) :
      escByte :: Utf8.encodeChar c ≠ [escByte, b] ↔ c ≠ k := by
    rw [← hk, ne_eq, List.cons.injEq, Utf8.encodeChar_inj, and_iff_right rfl]
  have hbracket : escByte :: Utf8.encodeChar c ≠ [escByte, 0x5b] ↔ c ≠ '[' := hchar rfl
  have ho : escByte :: Utf8.encodeChar c ≠ [escByte, 0x4f] ↔ c ≠ 'O' := hchar rfl
  constructor
  · rintro ⟨⟩
    exact ⟨rfl, ‹_›, ‹_›, hbracket.2 ‹_›, ho.2 ‹_›⟩
  · rintro ⟨rfl, hc, hspace, hb, hb'⟩
    exact .alt hc hspace (hbracket.1 hb) (ho.1 hb')

theorem eq_ctrlLetter_iff {b : UInt8} : c = ctrlLetter b ↔ c.toNat = 0x60 + b.toNat := by
  have hlt := b.toNat_lt
  rw [← Char.toNat_inj, ctrlLetter, Utf8.toNat_charOfNat (.inl (by omega))]

theorem types_onlyCtrl_iff :
    Types c .onlyCtrl data ↔ ∃ b : UInt8, data = [b] ∧ b ≤ 0x1a ∧ c.toNat = 0x60 + b.toNat := by
  constructor
  · rintro ⟨⟩
    exact ⟨_, rfl, ‹_›, eq_ctrlLetter_iff.1 ‹_›⟩
  · rintro ⟨b, rfl, hb, hc⟩
    exact .ctrl hb (eq_ctrlLetter_iff.2 hc)

theorem types_ctrlAlt_iff :
    Types c (Modifiers.onlyCtrl.union .onlyAlt) data ↔
      ∃ b : UInt8, data = [escByte, b] ∧ 1 ≤ b ∧ b ≤ 0x1a ∧ c.toNat = 0x60 + b.toNat := by
  constructor
  · rintro ⟨⟩
    exact ⟨_, rfl, ‹_›, ‹_›, eq_ctrlLetter_iff.1 ‹_›⟩
  · rintro ⟨b, rfl, hlow, hhigh, hc⟩
    exact .ctrlAlt hlow hhigh (eq_ctrlLetter_iff.2 hc)

theorem Types.mods_cases {mods : Modifiers} (h : Types c mods data) :
    mods = .empty ∨ mods = .onlyAlt ∨ mods = .onlyCtrl ∨
      mods = Modifiers.onlyCtrl.union .onlyAlt := by
  cases h <;> simp

/-- A press that goes by the name of characters is one of a character. -/
theorem IsReported.exists_char {key : Key} {mods : Modifiers} (h : IsReported key mods)
    (hkind : key.kind = Event.charKind) : ∃ c, key = .char c := by
  rcases h with hnamed | ⟨c, rfl, -⟩
  · exact absurd hkind (Key.ofKind_of_mem_named key hnamed).2.1
  · exact ⟨c, rfl⟩

end Decode

/-- **The bytes of every character and of every paste.**  A printable character other than the space
is decoded from its bytes, and with alt from an escape and its bytes, but not from an escape and a
lone `[` or `O`.  With ctrl a character is decoded from a byte up to 26, that many places behind the
backtick, and with ctrl and alt from an escape and such a byte other than zero.  A paste is decoded
from its text between the marks.  No other bytes are decoded to a character or a paste, and what is
decoded passes the check of its parts. -/
theorem decode_inverse_images (data : List UInt8) :
    (∀ c, decode data = some (.press (.char c) .empty) ↔
      data = Utf8.encodeChar c ∧ isPrintable c = true ∧ c ≠ ' ') ∧
    (∀ c, decode data = some (.press (.char c) .onlyAlt) ↔
      data = escByte :: Utf8.encodeChar c ∧ isPrintable c = true ∧ c ≠ ' ' ∧
        data ≠ [escByte, 0x5b] ∧ data ≠ [escByte, 0x4f]) ∧
    (∀ c, decode data = some (.press (.char c) .onlyCtrl) ↔
      ∃ b : UInt8, data = [b] ∧ b ≤ 0x1a ∧ c.toNat = 0x60 + b.toNat) ∧
    (∀ c, decode data = some (.press (.char c) (Modifiers.onlyCtrl.union .onlyAlt)) ↔
      ∃ b : UInt8, data = [escByte, b] ∧ 1 ≤ b ∧ b ≤ 0x1a ∧ c.toNat = 0x60 + b.toNat) ∧
    (∀ text, decode data = some (.paste text) ↔
      ∃ body, data = pasteStart ++ body ++ pasteEnd ∧ Utf8.decodeLossy body = text) ∧
    (∀ key mods, decode data = some (.press key mods) → key.kind = Event.charKind →
      ∃ c, key = .char c ∧ (mods = .empty ∨ mods = .onlyAlt ∨ mods = .onlyCtrl ∨
        mods = Modifiers.onlyCtrl.union .onlyAlt)) ∧
    (∀ e, decode data = some e →
      Event.make? e.kind (e.char?.map ([·])) e.text? e.mods.bits = .ok e) ∧
    ∀ text, decode (pasteStart ++ Utf8.encode text ++ pasteEnd) = some (.paste text) := by
  refine ⟨fun c => decode_eq_char_iff.trans Decode.types_empty_iff,
    fun c => decode_eq_char_iff.trans Decode.types_onlyAlt_iff,
    fun c => decode_eq_char_iff.trans Decode.types_onlyCtrl_iff,
    fun c => decode_eq_char_iff.trans Decode.types_ctrlAlt_iff,
    fun text => decode_eq_paste_iff, ?other, fun e => make?_of_decode, ?encoded⟩
  case other =>
    intro key mods h hkind
    obtain ⟨c, rfl⟩ := (isPress_of_decode h).isReported.exists_char hkind
    exact ⟨c, rfl, (decode_eq_char_iff.1 h).mods_cases⟩
  case encoded =>
    intro text
    exact decode_eq_paste_iff.2 ⟨_, rfl, Utf8.decodeLossy_encode text⟩

end ShellLine
