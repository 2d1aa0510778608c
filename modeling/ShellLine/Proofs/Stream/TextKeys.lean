import ShellLine.Proofs.Stream.Partition
import ShellLine.Proofs.Text.WellFormed

/-!
# Proofs/Stream/TextKeys — keys that are text

A key that is no escape sequence is as many bytes as the first of them asks for, and the splitter does
not look at the others.  So it is one byte or one character exactly where the bytes behind each lead
byte continue a character (`textKeys_iff`); a lead that something else follows takes that into its
key, an escape or the next letter.  Streams of well-formed text have no such lead
(`leadsContinue_encode`).
-/

namespace ShellLine

/-- One byte, or the bytes of one character. -/
def IsText (x : List UInt8) : Prop := x.length = 1 ∨ ∃ c, x = Utf8.encodeChar c

/-- Wherever a key begins with a lead byte and as many bytes are there as it asks for, they continue
a character. -/
def LeadsContinue (data : List UInt8) : Prop :=
  ∀ before lead s later, data = before ++ (lead :: s ++ later) → (splitKeys before).2 = [] →
    lead ≠ escByte → (lead :: s).length = Utf8.length lead → Utf8.Continues lead s

/-- One byte and one character hold no byte of ASCII beside others. -/
theorem IsText.eq_singleton {x : List UInt8} {b : UInt8} (hx : IsText x) (hb : b ∈ x)
    (hascii : b < 0x80) : x = [b] := by
  rcases hx with hx | ⟨c, rfl⟩
  · obtain ⟨e, rfl⟩ := List.length_eq_one_iff.1 hx
    rw [List.mem_singleton.1 hb]
  · exact Utf8.encodeChar_eq_singleton hb hascii

/-- **A lead byte and what it asks for are text** exactly if the bytes behind it continue it. -/
theorem isText_cons_iff {lead : UInt8} {s : List UInt8} (hlen : s.length + 1 = Utf8.length lead) :
    IsText (lead :: s) ↔ Utf8.Continues lead s := by
  constructor
  · rintro (hone | ⟨c, hc⟩)
    · obtain rfl : s = [] := List.length_eq_zero_iff.1 (Nat.succ.inj hone)
      exact trivial
    · exact Utf8.continues_of_encodeChar hc.symm
  · intro hs
    by_cases hne : s = []
    · exact .inl (by rw [hne]; rfl)
    · obtain ⟨c, hc⟩ := Utf8.exists_encodeChar hlen.symm hne hs
      exact .inr ⟨c, hc.symm⟩

/-- **Keys of text are single bytes or whole characters exactly if leads are continued**: exactly
then each key that does not begin with an escape is one byte or one character, and holds no escape
and no other byte of ASCII that belongs to the next key. -/
theorem textKeys_iff (data : List UInt8) :
    (∀ x ∈ (splitKeys data).1, x.head? ≠ some escByte →
        IsText x ∧ ∀ b ∈ x, b < 0x80 → x = [b]) ↔
      LeadsContinue data := by
  constructor
  · intro htext before lead s later hdata hbefore hlead hlen
    have hkey : IsKey (lead :: s) := isKey_iff_isWhole.2 (.character hlead hlen)
    have hmem : lead :: s ∈ (splitKeys data).1 :=
      mem_splitKeys_iff.2 ⟨before, later, hdata, hbefore, hkey⟩
    exact (isText_cons_iff hlen).1 (htext _ hmem (by simpa using hlead)).1
  · intro hleads x hx hhead
    obtain ⟨before, later, hdata, hbefore, hkey⟩ := mem_splitKeys_iff.1 hx
    obtain ⟨lead, s, rfl⟩ := List.exists_cons_of_ne_nil hkey.ne_nil
    have hlead : lead ≠ escByte := by simpa using hhead
    have hlen : s.length + 1 = Utf8.length lead :=
      (isWhole_cons_iff hlead).1 (isKey_iff_isWhole.1 hkey)
    have htext : IsText (lead :: s) :=
      (isText_cons_iff hlen).2 (hleads before lead s later hdata hbefore hlead hlen)
    exact ⟨htext, fun b hb => htext.eq_singleton hb⟩

/-- Not all keys of text are bytes or characters: a lead byte takes an escape that follows it. -/
theorem not_forall_isText :
    ¬ ∀ data : List UInt8, ∀ x ∈ (splitKeys data).1, x.head? ≠ some escByte → IsText x := by
  intro h
  have hkey : IsKey [0xc3, escByte] := isKey_iff_isWhole.2 (.character (by decide) (by decide))
  have hmem : [0xc3, escByte] ∈ (splitKeys [0xc3, escByte, 0x5b, 0x41]).1 :=
    mem_splitKeys_iff.2 ⟨[], [0x5b, 0x41], rfl, by rw [splitKeys], hkey⟩
  have htext := h _ _ hmem (by decide)
  cases htext.eq_singleton (b := escByte) (by simp) (by decide)

/-- **In well-formed text all leads are continued**, wherever it is cut into keys. -/
theorem leadsContinue_encode (text : List Char) : LeadsContinue (Utf8.encode text) := by
  intro before lead s later hdata _ _ hlen
  by_cases hne : s = []
  · rw [hne]
    exact trivial
  · have hpos := List.length_pos_iff.2 hne
    have hlead : 192 ≤ lead.toNat := by
      have hranges := Utf8.toNat_of_length lead
      rw [List.length_cons] at hlen
      omega
    obtain ⟨c, t, rest, hc, hrest⟩ := Utf8.exists_encodeChar_of_encode hlead hdata
    have hlen' := Utf8.length_of_encodeChar hc
    rw [List.length_cons] at hlen
    rw [(List.append_inj hrest (by omega)).1]
    exact Utf8.continues_of_encodeChar hc

end ShellLine
