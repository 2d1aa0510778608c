import ShellLine.Proofs.Text.Utf8
import ShellLine.Stream.Input

/-!
# Proofs/Key/Decode — what printable characters and pastes are decoded to

The bytes of a printable character are decoded to the event of typing it (`decode_encodeChar`), and
a paste with its marks to the event of pasting its text (`decode_pasteSequence`), whatever bytes
stand between the marks.
-/

namespace ShellLine

/-- The event of typing a character: the plain space has a key with a name. -/
def Event.ofChar (c : Char) : Event :=
  if c = ' ' then .press .space .empty else .press (.char c) .empty

/-- The printable characters of ASCII. -/
theorem isPrintable_iff_of_lt {c : Char} (h : c.toNat < 0x80) :
    isPrintable c = true ↔ 0x20 ≤ c.toNat ∧ c.toNat ≤ 0x7e := by
  rw [isPrintable, CharRanges.contains, printableRanges, CharRanges.covers, CharRanges.covers,
    if_pos (by omega : c.toNat < 0xa1)]
  split
  next hlt => exact iff_of_false Bool.false_ne_true (by omega)
  next hge =>
    rw [Bool.or_false, decide_eq_true_iff]
    omega

theorem escByte_not_mem_encodeChar {c : Char} (h : isPrintable c = true) :
    escByte ∉ Utf8.encodeChar c := by
  intro hmem
  rcases Utf8.toNat_of_mem_encodeChar c _ hmem with heq | hge
  · have hlt : c.toNat < 0x80 := by
      rw [← heq]
      decide
    have := (isPrintable_iff_of_lt hlt).1 h
    rw [← heq] at this
    exact absurd this.1 (by decide)
  · exact absurd hge (by decide)

namespace Decode

/-! ## Characters -/

theorem byte?_of_printable {c : Char} (h : 0x20 ≤ c.toNat ∧ c.toNat ≤ 0x7e) :
    byte? (UInt8.ofNat c.toNat) = some (.ofChar c) := by
  obtain ⟨hlow, hhigh⟩ := h
  have hnat : (UInt8.ofNat c.toNat).toNat = c.toNat := Utf8.toNat_ofNat (by omega)
  have hspace : c = ' ' ↔ c.toNat = 0x20 := by
    rw [← Char.toNat_inj]
    rfl
  simp only [byte?, isGraphic, UInt8.le_iff_toNat_le, ← UInt8.toNat_inj, hnat, UInt8.reduceToNat,
    Event.ofChar, hspace, Char.ofNat_toNat]
  rw [if_neg (by omega), if_neg (by omega)]
  split_ifs with hc hgraphic
  · rfl
  · rfl
  · exact absurd (by simp; omega) hgraphic

theorem char?_encodeChar {c : Char} (h : isPrintable c = true) :
    char? (Utf8.encodeChar c) = some (.ofChar c) := by
  rw [char?, printable?, Utf8.decode?_encodeChar]
  simp only [h, if_true, Option.map_some]
  rfl

/-- Bytes without an escape are no paste. -/
theorem pasted?_of_not_mem {data : List UInt8} (h : escByte ∉ data) : pasted? data = none := by
  refine if_neg fun hpaste => h ?_
  exact (List.isPrefixOf_iff_prefix.1 hpaste.2.1).subset (by decide)

/-! ## Pastes -/

/-- **The body of a paste is what stands between its marks**, whatever it holds. -/
theorem pasted?_pasteSequence (body : List UInt8) : pasted? (pasteSequence body) = some body := by
  have hlength : (pasteSequence body).length = body.length + 12 := by
    simp [pasteSequence, pasteStart, pasteEnd]
  have hstart : pasteStart.isPrefixOf (pasteSequence body) = true := by
    rw [List.isPrefixOf_iff_prefix, pasteSequence, List.append_assoc]
    exact List.prefix_append _ _
  have hend : pasteEnd.isSuffixOf (pasteSequence body) = true :=
    List.isSuffixOf_iff_suffix.2 (List.suffix_append _ _)
  have hbody : (pasteSequence body).drop 6 = body ++ pasteEnd := by
    rw [pasteSequence, List.append_assoc]
    exact List.drop_left' rfl
  rw [pasted?, if_pos ⟨by omega, hstart, hend⟩, hlength, Nat.add_sub_cancel, hbody, List.take_left]

end Decode

theorem decode_singleton (b : UInt8) : decode [b] = Decode.byte? b := rfl

/-- Several bytes without an escape can only be a character. -/
theorem decode_of_not_mem {b b' : UInt8} {s : List UInt8} (h : escByte ∉ b :: b' :: s) :
    decode (b :: b' :: s) = Decode.char? (b :: b' :: s) := by
  have hb : b ≠ escByte := by
    rintro rfl
    exact h List.mem_cons_self
  rw [decode.eq_def, Decode.pasted?_of_not_mem h]
  exact if_neg hb

/-- **The bytes of a printable character are decoded to the event of typing it.** -/
theorem decode_encodeChar {c : Char} (h : isPrintable c = true) :
    decode (Utf8.encodeChar c) = some (.ofChar c) := by
  have hesc := escByte_not_mem_encodeChar h
  have hchar := Decode.char?_encodeChar h
  revert hesc hchar
  refine Utf8.encodeChar_cases (motive := fun bytes => escByte ∉ bytes →
    Decode.char? bytes = some (.ofChar c) → decode bytes = some (.ofChar c)) c ?one ?two ?three
    ?four
  case one =>
    intro hlt _ _
    rw [decode_singleton]
    exact Decode.byte?_of_printable ((isPrintable_iff_of_lt hlt).1 h)
  all_goals
    intro _ _ hesc hchar
    rw [decode_of_not_mem hesc, hchar]

/-- **A paste with its marks is decoded to the paste of its text.** -/
theorem decode_pasteSequence (body : List UInt8) :
    decode (pasteSequence body) = some (.paste (Utf8.decodeLossy body)) := by
  rw [decode.eq_def, Decode.pasted?_pasteSequence]

end ShellLine
