import ShellLine.Proofs.Key.Presses
import ShellLine.Proofs.Stream.Keys

/-!
# Proofs/Stream/Agreement — what is decoded as one key is cut off as one

A stream is split by the first bytes of a sequence, and a key is decoded by the number of its bytes.
The two agree on what one key is (`splitKeys_of_decode`), but for three: an escape in front of `]`,
`P` or `_` is alt with that character, and it is how a text for the terminal begins.  Such bytes are
held back until it is clear that no text follows.
-/

namespace ShellLine

variable {b : UInt8} {s : List UInt8}

/-! ## Escape sequences that are keys -/

/-- Can the byte end a control sequence? -/
def isFinalByte (b : UInt8) : Bool := 0x40 ≤ b && b ≤ 0x7e

theorem isControlSequence_eq_false (h : ∀ b ∈ s, isFinalByte b = false) :
    isControlSequence s = false := by
  rw [isControlSequence]
  split
  next b hlast =>
    have hb : (decide (0x40 ≤ b) && decide (b ≤ 0x7e)) = false := h b (List.mem_of_getLast? hlast)
    rw [hb, Bool.false_and]
  next => rfl

theorem isWholeAfterEscape_control (h : s.head? ≠ some 0x4d) :
    isWholeAfterEscape 0x5b s = isControlSequence s := by
  rw [isWholeAfterEscape, if_pos rfl, if_neg h]

/-- A control sequence that does not begin like the report of a mouse can end with any final byte. -/
theorem isControlSequence_concat {final : UInt8} (hfinal : isFinalByte final = true)
    (h : (s ++ [final]).head? ≠ some 0x3c) : isControlSequence (s ++ [final]) = true := by
  have hrange : (decide (0x40 ≤ final) && decide (final ≤ 0x7e)) = true := hfinal
  simp only [isControlSequence, List.getLast?_concat, hrange, bne_iff_ne.2 h, Bool.true_or,
    Bool.and_self]

/-- **A control sequence is a key**: it goes on up to the first byte that can end it.  The two that
are read in another way, the reports of a mouse, begin with `M` and with `<`. -/
theorem isKey_controlSequence {p : List UInt8} {final : UInt8}
    (hp : ∀ b ∈ p, isFinalByte b = false) (hmouse : p.head? ≠ some 0x3c)
    (hfinal : isFinalByte final = true) (hother : p = [] → final ≠ 0x4d) :
    IsKey (escByte :: 0x5b :: (p ++ [final])) := by
  have hnot {b : UInt8} (hb : b ∈ p) : b ≠ 0x4d := by
    rintro rfl
    cases hp _ hb
  rw [isKey_escape_iff]
  constructor
  · have hhead : (p ++ [final]).head? ≠ some 0x4d := by
      cases p with
      | nil => simpa using hother rfl
      | cons b p => simpa using hnot List.mem_cons_self
    have hhead' : (p ++ [final]).head? ≠ some 0x3c := by
      cases p with
      | nil =>
        rintro h
        obtain rfl : final = 0x3c := by simpa using h
        cases hfinal
      | cons b p => exact hmouse
    rw [isWholeAfterEscape_control hhead]
    exact isControlSequence_concat hfinal hhead'
  · intro n hn
    rw [List.length_append, List.length_singleton, Nat.lt_succ_iff] at hn
    rw [List.take_append_of_le_length hn]
    have hsub : ∀ b ∈ p.take n, b ∈ p := fun b hb => List.mem_of_mem_take hb
    have hhead : (p.take n).head? ≠ some 0x4d := fun h =>
      hnot (hsub _ (List.mem_of_head? h)) rfl
    rw [isWholeAfterEscape_control hhead]
    exact isControlSequence_eq_false fun b hb => hp b (hsub b hb)

/-- The bytes that begin a sequence of their own behind an escape. -/
def sequenceIntroducers : List UInt8 := [0x5b, 0x4f, 0x5d, 0x50, 0x5f]

theorem isWholeAfterEscape_of_not_mem (hb : b ∉ sequenceIntroducers) (s : List UInt8) :
    isWholeAfterEscape b s = decide (Utf8.length b ≤ s.length + 1) := by
  simp only [sequenceIntroducers, List.mem_cons, List.not_mem_nil, or_false, not_or] at hb
  rw [isWholeAfterEscape, if_neg hb.1, if_neg hb.2.2.1, if_neg (not_or.2 hb.2.2.2), if_neg hb.2.1]

/-- **An escape in front of a character is a key.** -/
theorem isKey_escape_char (hb : b ∉ sequenceIntroducers) (hlen : Utf8.length b = s.length + 1) :
    IsKey (escByte :: b :: s) := by
  rw [isKey_escape_iff, isWholeAfterEscape_of_not_mem hb, hlen]
  refine ⟨decide_eq_true (Nat.le_refl _), fun n hn => ?_⟩
  rw [isWholeAfterEscape_of_not_mem hb, hlen, List.length_take]
  exact decide_eq_false (by omega)

/-- An escape and `O` take one more byte. -/
theorem isKey_escape_one (x : UInt8) : IsKey [escByte, 0x4f, x] := by
  rw [isKey_escape_iff]
  refine ⟨rfl, fun n hn => ?_⟩
  obtain rfl : n = 0 := by simpa using hn
  rfl

/-! ## Presses are keys

But for an escape in front of a character that begins a text for the terminal. -/

/-- The bytes with which a text for the terminal begins: an escape and one character. -/
def textIntroducers : List (List UInt8) := [[escByte, 0x5d], [escByte, 0x50], [escByte, 0x5f]]

/-- A text for the terminal is not whole when it begins. -/
theorem splitKeys_of_mem_textIntroducers {x : List UInt8} (h : x ∈ textIntroducers) :
    splitKeys x = ([], x) := by
  simp only [textIntroducers, List.mem_cons, List.not_mem_nil, or_false] at h
  rcases h with rfl | rfl | rfl <;> exact splitKeys_of_none (by decide)

section

variable {key : Key} {mods : Modifiers}

theorem isFinalByte_of_letterKey? (h : Decode.letterKey? b = some key) :
    isFinalByte b = true ∧ b ≠ 0x4d := by
  have hall : ∀ p ∈ Decode.letterKeys, isFinalByte p.1 = true ∧ p.1 ≠ 0x4d := by decide
  exact hall _ (Decode.mem_of_letterKey? h)

/-- What the digit of a key is not: the end of a sequence, or the first byte of the report of a
mouse. -/
theorem isFinalByte_of_digitKey? (h : Decode.digitKey? b = some key) :
    isFinalByte b = false ∧ b ≠ 0x3c := by
  have hall : ∀ p ∈ Decode.digitKeys, isFinalByte p.1 = false ∧ p.1 ≠ 0x3c := by decide
  exact hall _ (Decode.mem_of_digitKey? h)

theorem isFinalByte_of_digitModifiers? (h : Decode.digitModifiers? b = some mods) :
    isFinalByte b = false := by
  have hall : Decode.modifierDigits.all (fun b => !isFinalByte b) = true := by decide
  exact Bool.not_eq_true' _ ▸ List.all_eq_true.1 hall _ (Decode.mem_of_digitModifiers? h)

/-- **The bytes of a press are one key**, as long as no text for the terminal begins with them. -/
theorem Decode.IsPress.isKey {x : List UInt8} (h : Decode.IsPress key mods x)
    (hx : x ∉ textIntroducers) : IsKey x := by
  cases h with
  | byte h =>
    obtain ⟨hlt, hesc⟩ := Decode.lt_of_byte? h
    exact (isKey_iff_length hesc).2 (if_pos hlt)
  | char hb h =>
    obtain ⟨c, hc, -⟩ := Option.map_eq_some_iff.1 h
    exact (isKey_iff_length hb).2 (Decode.length_of_printable? hc)
  | altByte hb h =>
    refine isKey_escape_char ?_ (if_pos (Decode.lt_of_altByte? h))
    simp only [Decode.isIntroducer, Bool.or_eq_false_iff, beq_eq_false_iff_ne, ne_eq,
      textIntroducers, sequenceIntroducers, List.mem_cons, List.cons.injEq, List.not_mem_nil,
      and_true, true_and, or_false, not_or] at hb hx ⊢
    exact ⟨hb.1, hb.2, hx⟩
  | altChar hb h hkey hmods =>
    refine isKey_escape_char (fun hmem => ?_) (Decode.length_of_printable? h)
    have hall : sequenceIntroducers.all (fun b => decide (b < 0x80)) = true := by decide
    exact absurd (of_decide_eq_true (List.all_eq_true.1 hall _ hmem)) (UInt8.not_lt.2 hb)
  | letter hb h hmods =>
    simp only [Decode.isIntroducer, Bool.or_eq_true, beq_iff_eq] at hb
    rcases hb with rfl | rfl
    · obtain ⟨hfinal, hne⟩ := isFinalByte_of_letterKey? h
      exact isKey_controlSequence (p := []) (by simp) (by simp) hfinal fun _ => hne
    · exact isKey_escape_one _
  | @digit digit h hmods =>
    obtain ⟨hfinal, hne⟩ := isFinalByte_of_digitKey? h
    exact isKey_controlSequence (p := [digit]) (by simpa using hfinal) (by simpa using hne) rfl
      (by simp)
  | @modified digit m final h =>
    obtain ⟨mods, hm, hcases⟩ := Decode.modifiedKey?_eq_some h
    have hsemicolon : isFinalByte 0x3b = false := rfl
    have hdigit : isFinalByte digit = false ∧ digit ≠ 0x3c := by
      rcases hcases with ⟨rfl, -⟩ | ⟨rfl, -⟩ <;> decide
    have hfinal : isFinalByte final = true := by
      obtain ⟨-, k, hk, -⟩ | ⟨-, rfl, -⟩ := hcases
      · exact (isFinalByte_of_letterKey? hk).1
      · rfl
    exact isKey_controlSequence (p := [digit, 0x3b, m])
      (by simp [hdigit.1, hsemicolon, isFinalByte_of_digitModifiers? hm]) (by simpa using hdigit.2)
      hfinal (by simp)

end

/-- **What is decoded as one key is cut off as one**, neither split nor held back.  Only the bytes
with which a text for the terminal begins are held back whole: they are alt and a character when
nothing follows them. -/
theorem splitKeys_of_decode {x : List UInt8} {key : Key} {mods : Modifiers}
    (h : decode x = some (.press key mods)) :
    splitKeys x = if x ∈ textIntroducers then ([], x) else ([x], []) := by
  split
  next hx => exact splitKeys_of_mem_textIntroducers hx
  next hx => exact (isPress_of_decode h).isKey hx

/-- An arrow with modifiers and alt with `é` are one key each; alt with `P` is held back. -/
theorem splitKeys_of_decode_alt :
    let arrow : List UInt8 := [0x1b, 0x5b, 0x31, 0x3b, 0x37, 0x41]
    let accented : List UInt8 := [0x1b, 0xc3, 0xa9]
    let letter : List UInt8 := [0x1b, 0x50]
    (decode arrow = some (.press .up ⟨false, true, true⟩) ∧ splitKeys arrow = ([arrow], [])) ∧
      (decode accented = some (.press (.char 'é') .onlyAlt) ∧
        splitKeys accented = ([accented], [])) ∧
      decode letter = some (.press (.char 'P') .onlyAlt) ∧ splitKeys letter = ([], letter) := by
  intro arrow accented letter
  have harrow : decode arrow = some (.press .up ⟨false, true, true⟩) := by decide +kernel
  have haccented : decode accented = some (.press (.char 'é') .onlyAlt) := by decide +kernel
  have hletter : decode letter = some (.press (.char 'P') .onlyAlt) := by decide +kernel
  exact ⟨⟨harrow, (splitKeys_of_decode harrow).trans (if_neg (by decide))⟩,
    ⟨haccented, (splitKeys_of_decode haccented).trans (if_neg (by decide))⟩,
    hletter, (splitKeys_of_decode hletter).trans (if_pos (by decide))⟩

/-- Not all that is decoded as a key is cut off: alt with `P` is not. -/
theorem not_forall_splitKeys_of_decode :
    ¬ ∀ (x : List UInt8) (key : Key) (mods : Modifiers),
      decode x = some (.press key mods) → splitKeys x = ([x], []) := by
  intro h
  have hletter : splitKeys [0x1b, 0x50] = ([[0x1b, 0x50]], []) :=
    h _ (.char 'P') .onlyAlt (by decide +kernel)
  rw [splitKeys_of_mem_textIntroducers (by decide)] at hletter
  cases hletter

end ShellLine
