/-!
# Text/Blank — the characters that separate words

A blank is a character of Unicode's white space, or one of the four information separators
U+001C to U+001F.  `isBlankText` says when a whole text is one run of blanks.
-/

namespace ShellLine

/-- Blanks separate words: the white space of Unicode and the separators U+001C to U+001F. -/
def isBlank (c : Char) : Bool :=
  let n := c.toNat
  (9 ≤ n && n ≤ 13) || (28 ≤ n && n ≤ 32) || n == 0x85 || n == 0xa0 || n == 0x1680 ||
    (0x2000 ≤ n && n ≤ 0x200a) || n == 0x2028 || n == 0x2029 || n == 0x202f || n == 0x205f ||
    n == 0x3000

/-- A text is blank when it is a run of at least one blank. -/
def isBlankText (s : List Char) : Bool := !s.isEmpty && s.all isBlank

/-- White space of ASCII is blank. -/
theorem isBlank_of_isWhitespace {c : Char} (h : c.isWhitespace = true) : isBlank c = true := by
  simp only [Char.isWhitespace, Bool.or_eq_true, decide_eq_true_eq] at h
  rcases h with ((rfl | rfl) | rfl) | rfl <;> rfl

end ShellLine
