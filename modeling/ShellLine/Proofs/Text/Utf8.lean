import Mathlib.Data.List.Basic
import ShellLine.Text.Utf8

/-!
# Proofs/Text/Utf8 — bytes of characters are read back

A character is a lead byte, which says how many bytes there are, and tail bytes, which carry six
bits each.  `encodeChar_cases` gives the bytes by the size of the character; reading them back gives
the character and leaves what follows (`read_encodeChar`).
-/

namespace ShellLine.Utf8

/-! ## The bytes of one character -/

/-- The tail byte that carries the lowest six bits of `n`. -/
def tailByte (n : Nat) : UInt8 := UInt8.ofNat (n % 64 + 128)

theorem toNat_ofNat {n : Nat} (h : n < 256) : (UInt8.ofNat n).toNat = n := by
  rw [UInt8.toNat_ofNat', Nat.mod_eq_of_lt h]

@[simp] theorem toNat_tailByte (n : Nat) : (tailByte n).toNat = n % 64 + 128 :=
  toNat_ofNat (by omega)

/-- **The bytes of a character**, by its size. -/
@[elab_as_elim]
theorem encodeChar_cases {motive : List UInt8 → Prop} (c : Char)
    (one : c.toNat < 0x80 → motive [UInt8.ofNat c.toNat])
    (two : 0x80 ≤ c.toNat → c.toNat < 0x800 →
      motive [UInt8.ofNat (c.toNat / 64 + 192), tailByte c.toNat])
    (three : 0x800 ≤ c.toNat → c.toNat < 0x10000 →
      motive [UInt8.ofNat (c.toNat / 4096 + 224), tailByte (c.toNat / 64), tailByte c.toNat])
    (four : 0x10000 ≤ c.toNat → c.toNat < 0x110000 →
      motive [UInt8.ofNat (c.toNat / 262144 + 240), tailByte (c.toNat / 4096),
        tailByte (c.toNat / 64), tailByte c.toNat]) :
    motive (encodeChar c) := by
  have hvalid : c.toNat < 0xd800 ∨ 0xdfff < c.toNat ∧ c.toNat < 0x110000 := c.valid
  rw [encodeChar, String.utf8EncodeChar, show c.val.toNat = c.toNat from rfl]
  split_ifs with h1 h2 h3
  · exact one (by omega)
  · rw [Nat.mod_eq_of_lt (by omega : c.toNat / 64 < 32)]
    exact two (by omega) (by omega)
  · rw [Nat.mod_eq_of_lt (by omega : c.toNat / 4096 < 16)]
    exact three (by omega) (by omega)
  · rw [Nat.mod_eq_of_lt (by omega : c.toNat / 262144 < 8)]
    exact four (by omega) (by omega)

/-! ## Reading it back -/

theorem length_eq (lead : UInt8) :
    length lead =
      if lead.toNat < 128 then 1
      else if 194 ≤ lead.toNat ∧ lead.toNat ≤ 223 then 2
      else if 224 ≤ lead.toNat ∧ lead.toNat ≤ 239 then 3
      else if 240 ≤ lead.toNat ∧ lead.toNat ≤ 244 then 4
      else 1 := by
  simp only [length, UInt8.lt_iff_toNat_lt, UInt8.le_iff_toNat_le, UInt8.reduceToNat]

theorem continued_tailByte (n bits m : Nat) {low high : UInt8} (hlow : low.toNat ≤ m % 64 + 128)
    (hhigh : m % 64 + 128 ≤ high.toNat) (s : List UInt8) :
    continued (n + 1) bits low high (tailByte m :: s) =
      continued n (bits * 64 + m % 64) 0x80 0xbf s := by
  have hbounds : low ≤ tailByte m ∧ tailByte m ≤ high := by
    rw [UInt8.le_iff_toNat_le, UInt8.le_iff_toNat_le, toNat_tailByte]
    exact ⟨hlow, hhigh⟩
  rw [continued, if_pos hbounds, toNat_tailByte]
  congr 2
  omega

/-- Behind the second byte every tail byte is taken. -/
theorem continued_tailByte_of_plain (n bits m : Nat) (s : List UInt8) :
    continued (n + 1) bits 0x80 0xbf (tailByte m :: s) =
      continued n (bits * 64 + m % 64) 0x80 0xbf s := by
  refine continued_tailByte n bits m (Nat.le_add_left 128 _) ?_ s
  change m % 64 + 128 ≤ 191
  omega

theorem continued_zero {c : Char} {bits : Nat} (h : bits = c.toNat) (low high : UInt8)
    (s : List UInt8) : continued 0 bits low high s = (some c, s) := by
  rw [continued, h, Char.ofNat_toNat]

/-- The second byte is taken where its bounds, which are narrower behind two lead bytes, allow it. -/
theorem continued_second (n bits m : Nat) {lead k k' low high : UInt8}
    (hlow : lead.toNat = k.toNat → low.toNat ≤ m % 64 + 128)
    (hhigh : lead.toNat = k'.toNat → m % 64 + 128 ≤ high.toNat) (s : List UInt8) :
    continued (n + 1) bits (if lead = k then low else 0x80) (if lead = k' then high else 0xbf)
        (tailByte m :: s) =
      continued n (bits * 64 + m % 64) 0x80 0xbf s := by
  apply continued_tailByte
  · split
    next h => exact hlow (congrArg UInt8.toNat h)
    next => exact Nat.le_add_left 128 _
  · split
    next h => exact hhigh (congrArg UInt8.toNat h)
    next =>
      change m % 64 + 128 ≤ 191
      omega

section

variable {lead : UInt8} {c : Char}

theorem not_lt_of_length (h : length lead ≠ 1) : ¬ lead < 0x80 := fun hlt => h (if_pos hlt)

theorem read_two (hlead : lead.toNat = c.toNat / 64 + 192) (hlow : 0x80 ≤ c.toNat)
    (hhigh : c.toNat < 0x800) (rest : List UInt8) :
    length lead = 2 ∧ read lead (tailByte c.toNat :: rest) = (some c, rest) := by
  have hlen : length lead = 2 := by
    rw [length_eq, if_neg (by omega), if_pos (by omega)]
  refine ⟨hlen, ?_⟩
  rw [read, if_neg (not_lt_of_length (by rw [hlen]; decide)), hlen]
  simp only [continued_tailByte_of_plain]
  exact continued_zero (by omega) _ _ _

theorem read_three (hlead : lead.toNat = c.toNat / 4096 + 224) (hlow : 0x800 ≤ c.toNat)
    (hhigh : c.toNat < 0x10000) (rest : List UInt8) :
    length lead = 3 ∧
      read lead (tailByte (c.toNat / 64) :: tailByte c.toNat :: rest) = (some c, rest) := by
  have hvalid : c.toNat < 0xd800 ∨ 0xdfff < c.toNat ∧ c.toNat < 0x110000 := c.valid
  have hlen : length lead = 3 := by
    rw [length_eq, if_neg (by omega), if_neg (by omega), if_pos (by omega)]
  refine ⟨hlen, ?_⟩
  rw [read, if_neg (not_lt_of_length (by rw [hlen]; decide)), hlen]
  simp only
  rw [continued_second, continued_tailByte_of_plain, continued_zero]
  · omega
  · simp only [UInt8.reduceToNat]
    omega
  · simp only [UInt8.reduceToNat]
    omega

theorem read_four (hlead : lead.toNat = c.toNat / 262144 + 240) (hlow : 0x10000 ≤ c.toNat)
    (hhigh : c.toNat < 0x110000) (rest : List UInt8) :
    length lead = 4 ∧
      read lead (tailByte (c.toNat / 4096) :: tailByte (c.toNat / 64) :: tailByte c.toNat :: rest) =
        (some c, rest) := by
  have hlen : length lead = 4 := by
    rw [length_eq, if_neg (by omega), if_neg (by omega), if_neg (by omega), if_pos (by omega)]
  refine ⟨hlen, ?_⟩
  rw [read, if_neg (not_lt_of_length (by rw [hlen]; decide)), hlen]
  simp only
  rw [continued_second, continued_tailByte_of_plain, continued_tailByte_of_plain, continued_zero]
  · omega
  · simp only [UInt8.reduceToNat]
    omega
  · simp only [UInt8.reduceToNat]
    omega

end

/-- **A character is read back**, whatever follows it, and its first byte says how many it has. -/
theorem read_encodeChar (c : Char) :
    ∃ e s, encodeChar c = e :: s ∧ length e = s.length + 1 ∧
      ∀ rest, read e (s ++ rest) = (some c, rest) := by
  refine encodeChar_cases (motive := fun bytes => ∃ e s, bytes = e :: s ∧
    length e = s.length + 1 ∧ ∀ rest, read e (s ++ rest) = (some c, rest)) c ?one ?two ?three ?four
  case one =>
    intro hlt
    have hlead : UInt8.ofNat c.toNat < 0x80 := by
      rw [UInt8.lt_iff_toNat_lt, toNat_ofNat (by omega)]
      exact hlt
    refine ⟨_, [], rfl, if_pos hlead, fun rest => ?_⟩
    rw [read, if_pos hlead, toNat_ofNat (by omega), Char.ofNat_toNat]
    rfl
  case two =>
    intro hlow hhigh
    have h := read_two (toNat_ofNat (n := c.toNat / 64 + 192) (by omega)) hlow hhigh
    exact ⟨_, _, rfl, (h []).1, fun rest => (h rest).2⟩
  case three =>
    intro hlow hhigh
    have h := read_three (toNat_ofNat (n := c.toNat / 4096 + 224) (by omega)) hlow hhigh
    exact ⟨_, _, rfl, (h []).1, fun rest => (h rest).2⟩
  case four =>
    intro hlow hhigh
    have h := read_four (toNat_ofNat (n := c.toNat / 262144 + 240) (by omega)) hlow hhigh
    exact ⟨_, _, rfl, (h []).1, fun rest => (h rest).2⟩

theorem scan_encodeChar_append (c : Char) (rest : List UInt8) :
    scan (encodeChar c ++ rest) = some c :: scan rest := by
  obtain ⟨e, s, hbytes, -, hread⟩ := read_encodeChar c
  rw [hbytes, List.cons_append, scan, hread]

@[simp] theorem scan_nil : scan [] = [] := by rw [scan]

theorem decode?_encodeChar (c : Char) : decode? (encodeChar c) = some [c] := by
  have h := scan_encodeChar_append c []
  rw [List.append_nil, scan_nil] at h
  rw [decode?, h]
  rfl

/-- Characters with the same bytes are the same. -/
theorem encodeChar_inj {c c' : Char} : encodeChar c = encodeChar c' ↔ c = c' := by
  refine ⟨fun h => ?_, congrArg encodeChar⟩
  have hdecode := decode?_encodeChar c
  rw [h, decode?_encodeChar, Option.some.injEq, List.cons.injEq] at hdecode
  exact hdecode.1.symm

/-! ## Bytes of other characters -/

/-- A byte of a character is the character itself, or no byte of ASCII. -/
theorem toNat_of_mem_encodeChar (c : Char) :
    ∀ b ∈ encodeChar c, b.toNat = c.toNat ∨ 0x80 ≤ b.toNat := by
  have htail (n : Nat) : 0x80 ≤ (tailByte n).toNat := by
    rw [toNat_tailByte]
    exact Nat.le_add_left 128 _
  have hlead {n : Nat} (h : 0x80 ≤ n) (h' : n < 256) : 0x80 ≤ (UInt8.ofNat n).toNat := by
    rwa [toNat_ofNat h']
  refine encodeChar_cases (motive := fun bytes =>
    ∀ b ∈ bytes, b.toNat = c.toNat ∨ 0x80 ≤ b.toNat) c ?one ?two ?three ?four
  case one =>
    intro hlt b hb
    rw [List.mem_singleton.1 hb]
    exact .inl (toNat_ofNat (by omega))
  case two =>
    intro hlow hhigh b hb
    simp only [List.mem_cons, List.not_mem_nil, or_false] at hb
    rcases hb with rfl | rfl
    · exact .inr (hlead (by omega) (by omega))
    · exact .inr (htail _)
  case three =>
    intro hlow hhigh b hb
    simp only [List.mem_cons, List.not_mem_nil, or_false] at hb
    rcases hb with rfl | rfl | rfl
    · exact .inr (hlead (by omega) (by omega))
    all_goals exact .inr (htail _)
  case four =>
    intro hlow hhigh b hb
    simp only [List.mem_cons, List.not_mem_nil, or_false] at hb
    rcases hb with rfl | rfl | rfl | rfl
    · exact .inr (hlead (by omega) (by omega))
    all_goals exact .inr (htail _)

/-! ## Bytes that are one character

The first byte of what was read says how many there were, whichever bytes they are. -/

theorem length_of_continued {c : Char} {rest : List UInt8} :
    ∀ {n bits : Nat} {low high : UInt8} {s : List UInt8},
      continued n bits low high s = (some c, rest) → s.length = n + rest.length
  | 0, _, _, _, s, h => by
      rw [continued, Prod.mk.injEq] at h
      rw [h.2, Nat.zero_add]
  | n + 1, _, _, _, [], h => by simp [continued] at h
  | n + 1, _, _, _, b :: s, h => by
      rw [continued] at h
      split at h
      · have ih := length_of_continued h
        rw [List.length_cons]
        omega
      · simp at h

theorem length_of_read {lead : UInt8} {s rest : List UInt8} {c : Char}
    (h : read lead s = (some c, rest)) : s.length + 1 = length lead + rest.length := by
  rw [read] at h
  split at h
  next hlt =>
    rw [Prod.mk.injEq] at h
    rw [h.2, length, if_pos hlt, Nat.add_comm]
  next =>
    split at h
    next hlen =>
      rw [hlen, length_of_continued h]
      omega
    next hlen =>
      rw [hlen, length_of_continued h]
      omega
    next hlen =>
      rw [hlen, length_of_continued h]
      omega
    next => simp at h

theorem scan_eq_nil_iff {s : List UInt8} : scan s = [] ↔ s = [] := by
  cases s with
  | nil => simp
  | cons b s => simp [scan]

theorem mapM_id_eq_some_iff {l : List (Option Char)} {s : List Char} :
    l.mapM id = some s ↔ l = s.map some := by
  induction l generalizing s with
  | nil => cases s <;> simp
  | cons c? l ih =>
    cases c? with
    | none => cases s <;> simp
    | some c =>
      have hcons : (some c :: l).mapM id = (l.mapM id).map (c :: ·) := by
        cases hl : l.mapM id <;> simp [hl]
      rw [hcons, Option.map_eq_some_iff]
      constructor
      · rintro ⟨s, hs, rfl⟩
        rw [ih.1 hs, List.map_cons]
      · intro h
        cases s with
        | nil => cases h
        | cons c' s =>
          rw [List.map_cons, List.cons.injEq, Option.some.injEq] at h
          exact ⟨s, ih.2 h.2, h.1 ▸ rfl⟩

/-- Bytes are a text when all their pieces are the characters of it. -/
theorem decode?_eq_some_iff {data : List UInt8} {s : List Char} :
    decode? data = some s ↔ scan data = s.map some :=
  mapM_id_eq_some_iff

/-- **Bytes that are one character** are as many as the first of them says. -/
theorem length_of_decode? {b : UInt8} {s : List UInt8} {c : Char}
    (h : decode? (b :: s) = some [c]) : length b = s.length + 1 := by
  rw [decode?_eq_some_iff, scan, List.map_cons, List.map_nil, List.cons.injEq,
    scan_eq_nil_iff] at h
  have hread := length_of_read (Prod.ext h.1 h.2)
  rw [List.length_nil] at hread
  omega

end ShellLine.Utf8
