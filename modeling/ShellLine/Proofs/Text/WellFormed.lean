import ShellLine.Proofs.Text.Utf8

/-!
# Proofs/Text/WellFormed — which bytes are a character

A lead byte says how many bytes a character has; which bytes can stand behind it is `Continues`.  As
many bytes as the lead says are a character exactly if they continue it (`exists_encodeChar`,
`continues_of_encodeChar`), and in a text the bytes behind a lead always do
(`exists_encodeChar_of_encode`).  So a character is read exactly where its bytes are
(`read_eq_some_iff`), and a text is decoded from its own bytes only
(`decode?_eq_some_iff_eq_encode`).
-/

namespace ShellLine.Utf8

/-! ## The bytes behind a lead

The bytes behind a lead byte are tail bytes, and the first of them has narrower bounds behind four
leads: they keep out longer spellings, surrogates, and what is beyond U+10FFFF. -/

/-- The least byte that continues a character behind its lead byte. -/
def secondLow (lead : UInt8) : UInt8 :=
  if lead = 0xe0 then 0xa0 else if lead = 0xf0 then 0x90 else 0x80

/-- The greatest byte that continues a character behind its lead byte. -/
def secondHigh (lead : UInt8) : UInt8 :=
  if lead = 0xed then 0x9f else if lead = 0xf4 then 0x8f else 0xbf

/-- Do the bytes continue a character that begins with `lead`? -/
def Continues (lead : UInt8) : List UInt8 → Prop
  | [] => True
  | b :: s => (secondLow lead ≤ b ∧ b ≤ secondHigh lead) ∧ ∀ t ∈ s, 0x80 ≤ t ∧ t ≤ 0xbf

theorem isTail_iff {b : UInt8} : (0x80 ≤ b ∧ b ≤ 0xbf) ↔ 128 ≤ b.toNat ∧ b.toNat ≤ 191 := by
  rw [UInt8.le_iff_toNat_le, UInt8.le_iff_toNat_le]
  rfl

theorem isSecond_iff {lead b : UInt8} :
    (secondLow lead ≤ b ∧ b ≤ secondHigh lead) ↔
      (128 ≤ b.toNat ∧ b.toNat ≤ 191) ∧
        (lead.toNat = 224 → 160 ≤ b.toNat) ∧ (lead.toNat = 240 → 144 ≤ b.toNat) ∧
        (lead.toNat = 237 → b.toNat ≤ 159) ∧ (lead.toNat = 244 → b.toNat ≤ 143) := by
  rw [secondLow, secondHigh]
  simp only [← UInt8.toNat_inj, UInt8.le_iff_toNat_le, UInt8.reduceToNat]
  split_ifs <;> simp only [UInt8.reduceToNat] <;> omega

theorem tailByte_eq {n : Nat} {b : UInt8} (h : n % 64 + 128 = b.toNat) : tailByte n = b := by
  rw [tailByte, h, UInt8.ofNat_toNat]

theorem ofNat_eq {n : Nat} {b : UInt8} (h : n = b.toNat) : UInt8.ofNat n = b := by
  rw [h, UInt8.ofNat_toNat]

theorem toNat_charOfNat {n : Nat} (h : n.isValidChar) : (Char.ofNat n).toNat = n := by
  rw [Char.ofNat, dif_pos h]
  rfl

/-! ## Continued leads are characters

One lemma for each number of bytes gives the character by its bits. -/

theorem toNat_of_length (lead : UInt8) :
    (length lead = 2 → 194 ≤ lead.toNat ∧ lead.toNat ≤ 223) ∧
      (length lead = 3 → 224 ≤ lead.toNat ∧ lead.toNat ≤ 239) ∧
      (length lead = 4 → 240 ≤ lead.toNat ∧ lead.toNat ≤ 244) ∧ length lead ≤ 4 := by
  rw [length_eq]
  split_ifs <;> omega

section

variable {c : Char}

theorem encodeChar_one (h : c.toNat < 0x80) : encodeChar c = [UInt8.ofNat c.toNat] := by
  refine encodeChar_cases (motive := fun bytes => bytes = _) c (fun _ => rfl) ?_ ?_ ?_ <;>
    exact fun _ => by omega

theorem encodeChar_two (hlow : 0x80 ≤ c.toNat) (hhigh : c.toNat < 0x800) :
    encodeChar c = [UInt8.ofNat (c.toNat / 64 + 192), tailByte c.toNat] := by
  refine encodeChar_cases (motive := fun bytes => bytes = _) c ?_ (fun _ _ => rfl) ?_ ?_ <;>
    exact fun _ => by omega

theorem encodeChar_three (hlow : 0x800 ≤ c.toNat) (hhigh : c.toNat < 0x10000) :
    encodeChar c = [UInt8.ofNat (c.toNat / 4096 + 224), tailByte (c.toNat / 64),
      tailByte c.toNat] := by
  refine encodeChar_cases (motive := fun bytes => bytes = _) c ?_ ?_ (fun _ _ => rfl) ?_ <;>
    exact fun _ => by omega

theorem encodeChar_four (hlow : 0x10000 ≤ c.toNat) (hhigh : c.toNat < 0x110000) :
    encodeChar c = [UInt8.ofNat (c.toNat / 262144 + 240), tailByte (c.toNat / 4096),
      tailByte (c.toNat / 64), tailByte c.toNat] := by
  refine encodeChar_cases (motive := fun bytes => bytes = _) c ?_ ?_ ?_ (fun _ _ => rfl) <;>
    exact fun _ => by omega

/-- A character beyond ASCII has several bytes, the first of them beyond ASCII. -/
theorem exists_encodeChar_cons_cons (h : 0x80 ≤ c.toNat) :
    ∃ b b' s, encodeChar c = b :: b' :: s ∧ 0x80 ≤ b.toNat := by
  refine encodeChar_cases (motive := fun bytes => ∃ b b' s, bytes = b :: b' :: s ∧ 0x80 ≤ b.toNat)
    c ?_ ?_ ?_ ?_
  · exact fun hlt => absurd h (Nat.not_le.2 hlt)
  all_goals
    intro hlow hhigh
    refine ⟨_, _, _, rfl, ?_⟩
    rw [toNat_ofNat (by omega)]
    omega

end

section

variable {lead b₁ b₂ b₃ : UInt8}

theorem exists_encodeChar_two (hlen : length lead = 2) (h : Continues lead [b₁]) :
    ∃ c, encodeChar c = [lead, b₁] := by
  obtain ⟨h₁, -⟩ := h
  rw [isSecond_iff] at h₁
  have hlead := (toNat_of_length lead).1 hlen
  have hc := toNat_charOfNat (n := lead.toNat % 32 * 64 + b₁.toNat % 64) (.inl (by omega))
  generalize Char.ofNat (lead.toNat % 32 * 64 + b₁.toNat % 64) = c at hc
  refine ⟨c, ?_⟩
  rw [encodeChar_two (by omega) (by omega), ofNat_eq, tailByte_eq] <;> omega

theorem exists_encodeChar_three (hlen : length lead = 3) (h : Continues lead [b₁, b₂]) :
    ∃ c, encodeChar c = [lead, b₁, b₂] := by
  obtain ⟨h₁, h₂⟩ := h
  rw [isSecond_iff] at h₁
  have h₂ := isTail_iff.1 (h₂ b₂ (by simp))
  have hlead := (toNat_of_length lead).2.1 hlen
  have hc := toNat_charOfNat
    (n := (lead.toNat % 16 * 64 + b₁.toNat % 64) * 64 + b₂.toNat % 64) (by
      rw [Nat.isValidChar]
      omega)
  generalize Char.ofNat _ = c at hc
  refine ⟨c, ?_⟩
  rw [encodeChar_three (by omega) (by omega), ofNat_eq, tailByte_eq, tailByte_eq] <;> omega

theorem exists_encodeChar_four (hlen : length lead = 4) (h : Continues lead [b₁, b₂, b₃]) :
    ∃ c, encodeChar c = [lead, b₁, b₂, b₃] := by
  obtain ⟨h₁, htail⟩ := h
  rw [isSecond_iff] at h₁
  have h₂ := isTail_iff.1 (htail b₂ (by simp))
  have h₃ := isTail_iff.1 (htail b₃ (by simp))
  have hlead := (toNat_of_length lead).2.2.1 hlen
  have hc := toNat_charOfNat
    (n := ((lead.toNat % 8 * 64 + b₁.toNat % 64) * 64 + b₂.toNat % 64) * 64 + b₃.toNat % 64) (by
      rw [Nat.isValidChar]
      omega)
  generalize Char.ofNat _ = c at hc
  refine ⟨c, ?_⟩
  rw [encodeChar_four (by omega) (by omega), ofNat_eq, tailByte_eq, tailByte_eq, tailByte_eq] <;>
    omega

end

/-- **Bytes of the right number that continue their lead are a character.** -/
theorem exists_encodeChar {lead : UInt8} {s : List UInt8} (hlen : length lead = s.length + 1)
    (hne : s ≠ []) (h : Continues lead s) : ∃ c, encodeChar c = lead :: s := by
  have hle := (toNat_of_length lead).2.2.2
  match s with
  | [] => exact absurd rfl hne
  | [b₁] => exact exists_encodeChar_two hlen h
  | [b₁, b₂] => exact exists_encodeChar_three hlen h
  | [b₁, b₂, b₃] => exact exists_encodeChar_four hlen h
  | _ :: _ :: _ :: _ :: _ =>
    simp only [List.length_cons] at hlen
    omega

/-! ## Characters are continued leads -/

theorem isTail_tailByte (n : Nat) : 0x80 ≤ tailByte n ∧ tailByte n ≤ 0xbf := by
  rw [isTail_iff, toNat_tailByte]
  omega

/-- **The bytes of a character continue its lead.** -/
theorem continues_of_encodeChar {c : Char} {lead : UInt8} {s : List UInt8}
    (h : encodeChar c = lead :: s) : Continues lead s := by
  have hvalid : c.toNat < 0xd800 ∨ 0xdfff < c.toNat ∧ c.toNat < 0x110000 := c.valid
  revert h
  refine encodeChar_cases (motive := fun bytes => bytes = lead :: s → Continues lead s) c
    ?one ?two ?three ?four
  case one =>
    intro _ h
    rw [← (List.cons.inj h).2]
    exact trivial
  case two =>
    intro hlow hhigh h
    obtain ⟨rfl, rfl⟩ := List.cons.inj h
    refine ⟨isSecond_iff.2 ?_, by simp⟩
    rw [toNat_tailByte, toNat_ofNat (by omega)]
    omega
  case three =>
    intro hlow hhigh h
    obtain ⟨rfl, rfl⟩ := List.cons.inj h
    refine ⟨isSecond_iff.2 ?_, by simp [isTail_tailByte]⟩
    rw [toNat_tailByte, toNat_ofNat (by omega)]
    omega
  case four =>
    intro hlow hhigh h
    obtain ⟨rfl, rfl⟩ := List.cons.inj h
    refine ⟨isSecond_iff.2 ?_, by simp [isTail_tailByte]⟩
    rw [toNat_tailByte, toNat_ofNat (by omega)]
    omega

theorem length_of_encodeChar {c : Char} {lead : UInt8} {s : List UInt8}
    (h : encodeChar c = lead :: s) : length lead = s.length + 1 := by
  obtain ⟨e, t, hbytes, hlen, -⟩ := read_encodeChar c
  obtain ⟨rfl, rfl⟩ := List.cons.inj (h.symm.trans hbytes)
  exact hlen

/-- A byte of ASCII in a character is the character. -/
theorem encodeChar_eq_singleton {c : Char} {b : UInt8} (hb : b ∈ encodeChar c) (h : b < 0x80) :
    encodeChar c = [b] := by
  rw [UInt8.lt_iff_toNat_lt] at h
  have hc : b.toNat = c.toNat := (toNat_of_mem_encodeChar c b hb).resolve_right (Nat.not_le.2 h)
  refine encodeChar_cases (motive := fun bytes => bytes = [b]) c ?_ ?_ ?_ ?_
  · intro _
    rw [← hc, UInt8.ofNat_toNat]
  all_goals
    intro hlow _
    have hlt : b.toNat < 128 := h
    omega

/-- What continues a character is no byte of ASCII and begins no character. -/
theorem toNat_of_continues {lead : UInt8} {s : List UInt8} (h : Continues lead s) :
    ∀ b ∈ s, 128 ≤ b.toNat ∧ b.toNat ≤ 191 := by
  cases s with
  | nil => simp
  | cons b s =>
    rw [List.forall_mem_cons]
    exact ⟨(isSecond_iff.1 h.1).1, fun t ht => isTail_iff.1 (h.2 t ht)⟩

/-- **A lead byte in a text** begins a character there. -/
theorem exists_encodeChar_of_encode {lead : UInt8} (hlead : 192 ≤ lead.toNat) :
    ∀ {text : List Char} {before rest : List UInt8}, encode text = before ++ lead :: rest →
      ∃ c s later, encodeChar c = lead :: s ∧ rest = s ++ later
  | [], before, rest, h => by simp [encode] at h
  | c :: text, before, rest, h => by
      have hcons : encode (c :: text) = encodeChar c ++ encode text := rfl
      rw [hcons, List.append_eq_append_iff] at h
      obtain ⟨u, rfl, hu⟩ | ⟨u, hu, hrest⟩ := h
      · exact exists_encodeChar_of_encode hlead hu
      · cases u with
        | nil => exact @exists_encodeChar_of_encode lead hlead text [] rest hrest.symm
        | cons e u =>
          obtain ⟨rfl, rfl⟩ := List.cons.inj hrest
          cases before with
          | nil => exact ⟨c, u, _, hu, rfl⟩
          | cons b before =>
            -- Behind its first byte a character has tail bytes only.
            have htail := toNat_of_continues (continues_of_encodeChar hu) lead (by simp)
            omega

/-! ## What is read as a character is its bytes

A character is read only where its lead is continued, so reading is the inverse of writing, and a
text is read from its own bytes only. -/

/-- Behind the second byte what is taken are tail bytes. -/
theorem tails_of_continued {c : Char} {rest : List UInt8} :
    ∀ {n bits : Nat} {s : List UInt8}, continued n bits 0x80 0xbf s = (some c, rest) →
      ∃ t, s = t ++ rest ∧ t.length = n ∧ ∀ b ∈ t, 0x80 ≤ b ∧ b ≤ 0xbf
  | 0, _, s, h => by
      rw [continued, Prod.mk.injEq] at h
      exact ⟨[], h.2, rfl, by simp⟩
  | n + 1, _, [], h => by simp [continued] at h
  | n + 1, _, b :: s, h => by
      rw [continued] at h
      split at h
      next hb =>
        obtain ⟨t, rfl, hlen, ht⟩ := tails_of_continued h
        exact ⟨b :: t, rfl, congrArg (· + 1) hlen, List.forall_mem_cons.2 ⟨hb, ht⟩⟩
      next => simp at h

/-- What is taken behind a lead byte continues it. -/
theorem continues_of_continued {c : Char} {lead low high : UInt8} {rest : List UInt8}
    (hlow : low = secondLow lead) (hhigh : high = secondHigh lead) {n bits : Nat} {s : List UInt8}
    (h : continued (n + 1) bits low high s = (some c, rest)) :
    ∃ t, s = t ++ rest ∧ t.length = n + 1 ∧ Continues lead t := by
  cases s with
  | nil => simp [continued] at h
  | cons b s =>
    rw [continued] at h
    split at h
    next hb =>
      obtain ⟨t, rfl, hlen, ht⟩ := tails_of_continued h
      exact ⟨b :: t, rfl, congrArg (· + 1) hlen, hlow ▸ hhigh ▸ hb, ht⟩
    next => simp at h

theorem exists_of_read {c : Char} {lead : UInt8} {s rest : List UInt8} (hlead : ¬ lead < 0x80)
    (h : read lead s = (some c, rest)) :
    ∃ t, s = t ++ rest ∧ length lead = t.length + 1 ∧ t ≠ [] ∧ Continues lead t := by
  have hranges := toNat_of_length lead
  have hne {k : UInt8} (h : lead.toNat ≠ k.toNat) : lead ≠ k := fun heq => h (heq ▸ rfl)
  have htaken {n bits : Nat} {low high : UInt8} (hlow : low = secondLow lead)
      (hhigh : high = secondHigh lead) (hlen : length lead = n + 1 + 1)
      (h : continued (n + 1) bits low high s = (some c, rest)) :
      ∃ t, s = t ++ rest ∧ length lead = t.length + 1 ∧ t ≠ [] ∧ Continues lead t := by
    obtain ⟨t, hs, ht, hcont⟩ := continues_of_continued hlow hhigh h
    exact ⟨t, hs, by rw [hlen, ht], List.ne_nil_of_length_eq_add_one ht, hcont⟩
  rw [read, if_neg hlead] at h
  split at h
  next hlen =>
    have hrange := hranges.1 hlen
    refine htaken ?_ ?_ hlen h
    · rw [secondLow, if_neg (hne (by simp; omega)), if_neg (hne (by simp; omega))]
    · rw [secondHigh, if_neg (hne (by simp; omega)), if_neg (hne (by simp; omega))]
  next hlen =>
    have hrange := hranges.2.1 hlen
    refine htaken ?_ ?_ hlen h
    · rw [secondLow, if_neg (hne (by simp; omega) : lead ≠ 0xf0)]
    · rw [secondHigh, if_neg (hne (by simp; omega) : lead ≠ 0xf4)]
  next hlen =>
    have hrange := hranges.2.2.1 hlen
    refine htaken ?_ ?_ hlen h
    · rw [secondLow, if_neg (hne (by simp; omega) : lead ≠ 0xe0)]
    · rw [secondHigh, if_neg (hne (by simp; omega) : lead ≠ 0xed)]
  next => simp at h

theorem toNat_charOfNat_toNat (b : UInt8) : (Char.ofNat b.toNat).toNat = b.toNat := by
  have := b.toNat_lt
  exact toNat_charOfNat (.inl (by omega))

theorem encodeChar_ofNat {b : UInt8} (h : b < 0x80) : encodeChar (Char.ofNat b.toNat) = [b] := by
  have hlt : (Char.ofNat b.toNat).toNat < 0x80 := by
    rw [toNat_charOfNat_toNat]
    exact UInt8.lt_iff_toNat_lt.1 h
  rw [encodeChar_one hlt, toNat_charOfNat_toNat, UInt8.ofNat_toNat]

/-- **A character is read off the front exactly where its bytes are.** -/
theorem read_eq_some_iff {c : Char} {lead : UInt8} {s rest : List UInt8} :
    read lead s = (some c, rest) ↔ lead :: s = encodeChar c ++ rest := by
  constructor
  · intro h
    by_cases hlead : lead < 0x80
    · rw [read, if_pos hlead, Prod.mk.injEq, Option.some.injEq] at h
      rw [← h.1, ← h.2, encodeChar_ofNat hlead]
      rfl
    · obtain ⟨t, rfl, hlen, hne, ht⟩ := exists_of_read hlead h
      obtain ⟨c', hc'⟩ := exists_encodeChar hlen hne ht
      obtain ⟨e, u, hbytes, -, hread⟩ := read_encodeChar c'
      obtain ⟨rfl, rfl⟩ := List.cons.inj (hc'.symm.trans hbytes)
      rw [hread, Prod.mk.injEq, Option.some.injEq] at h
      rw [← h.1, hc']
      rfl
  · intro h
    obtain ⟨e, u, hbytes, -, hread⟩ := read_encodeChar c
    rw [hbytes, List.cons_append, List.cons.injEq] at h
    rw [h.1, h.2, hread]

/-- **Bytes are scanned to the characters of a text exactly if they are its bytes.** -/
theorem scan_eq_map_some_iff {s : List Char} :
    ∀ {data : List UInt8}, scan data = s.map some ↔ data = encode s := by
  induction s with
  | nil => exact scan_eq_nil_iff
  | cons c s ih =>
    intro data
    have hcons : encode (c :: s) = encodeChar c ++ encode s := rfl
    rw [hcons]
    cases data with
    | nil =>
      obtain ⟨e, u, hbytes, -⟩ := read_encodeChar c
      simp [hbytes]
    | cons b data =>
      rw [scan, List.map_cons, List.cons.injEq, ih]
      constructor
      · rintro ⟨hc, hrest⟩
        exact read_eq_some_iff.1 (Prod.ext hc hrest)
      · intro h
        rw [read_eq_some_iff.2 h]
        exact ⟨rfl, rfl⟩

/-- **A text is decoded from its own bytes only.** -/
theorem decode?_eq_some_iff_eq_encode {data : List UInt8} {s : List Char} :
    decode? data = some s ↔ data = encode s :=
  decode?_eq_some_iff.trans scan_eq_map_some_iff

/-- The bytes of a text are decoded to it with nothing replaced. -/
theorem decodeLossy_encode (s : List Char) : decodeLossy (encode s) = s := by
  rw [decodeLossy, scan_eq_map_some_iff.2 rfl, List.map_map]
  exact List.map_id s

end ShellLine.Utf8
