import ShellLine.Text.Grapheme
import ShellLine.Text.GraphemeTable
import ShellLine.Text.Width
import ShellLine.Text.WidthTable

/-!
# Text/Unicode — the texts of a program that runs

The clusters of Unicode and the columns of a terminal, by tables.  They are what a program here runs
with; what is proved of widths holds of any `Typography` that keeps to its documentation.
-/

namespace ShellLine

namespace Unicode

/-- The class of a character. -/
def graphemeClass (c : Char) : GraphemeClass :=
  let n := c.toNat
  if 32 ≤ n ∧ n ≤ 126 then .other
  else if n = 13 then .carriageReturn
  else if n = 10 then .lineFeed
  else if n = 0x200d then .joiner
  else if 0x1f1e6 ≤ n ∧ n ≤ 0x1f1ff then .regional
  else if (0x1100 ≤ n ∧ n ≤ 0x115f) ∨ (0xa960 ≤ n ∧ n ≤ 0xa97c) then .leading
  else if (0x1160 ≤ n ∧ n ≤ 0x11a7) ∨ (0xd7b0 ≤ n ∧ n ≤ 0xd7c6) then .vowel
  else if (0x11a8 ≤ n ∧ n ≤ 0x11ff) ∨ (0xd7cb ≤ n ∧ n ≤ 0xd7fb) then .trailing
  else if 0xac00 ≤ n ∧ n ≤ 0xd7a3 then
    if (n - 0xac00) % 28 = 0 then .openSyllable else .closedSyllable
  else if controlRanges.contains c then .control
  else if extendRanges.contains c then .extend
  else if spacingMarkRanges.contains c then .spacingMark
  else if prependRanges.contains c then .prepend
  else if pictographRanges.contains c then .pictograph
  else .other

/-- Is there a break before a character that nothing special precedes, and the state after it. -/
def plainStep : GraphemeClass → Bool × BreakState
  | .other => (true, .plain)
  | .extend | .spacingMark | .joiner => (false, .plain)
  | .carriageReturn => (true, .afterReturn)
  | .lineFeed | .control => (true, .afterControl)
  | .pictograph => (true, .afterPictograph)
  | .regional => (true, .afterRegional)
  | .leading => (true, .afterLeading)
  | .openSyllable | .vowel => (true, .afterVowel)
  | .closedSyllable | .trailing => (true, .afterTrailing)
  | .prepend => (true, .afterPrepend)

/-- Is there a break before the character, and the state after it. -/
def breakStep : BreakStep
  | .afterReturn, .lineFeed => (false, .afterControl)
  | .afterReturn, k => (true, (plainStep k).2)
  | .afterControl, k => (true, (plainStep k).2)
  | .afterPrepend, .control => (true, .plain)
  | .afterPrepend, .lineFeed => (true, .plain)
  | .afterPrepend, .carriageReturn => (true, .afterReturn)
  | .afterPrepend, k => (false, (plainStep k).2)
  | .afterLeading, .vowel => (false, .afterVowel)
  | .afterLeading, .openSyllable => (false, .afterVowel)
  | .afterLeading, .closedSyllable => (false, .afterTrailing)
  | .afterLeading, .leading => (false, .afterLeading)
  | .afterVowel, .vowel => (false, .afterVowel)
  | .afterVowel, .trailing => (false, .afterTrailing)
  | .afterTrailing, .trailing => (false, .afterTrailing)
  | .afterPictograph, .extend => (false, .afterPictograph)
  | .afterPictograph, .joiner => (false, .afterJoiner)
  | .afterJoiner, .pictograph => (false, .afterPictograph)
  | .afterRegional, .regional => (false, .plain)
  | _, k => plainStep k

/-- The columns of a character that stands alone: wide characters take two; marks and format
characters none. Controls cannot be shown. -/
def charColumns (c : Char) : Int :=
  let n := c.toNat
  if n = 0 then 0
  else if isControl c then -1
  else if n < 0x7f then 1
  else if zeroWidthRanges.contains c then 0
  else if wideRanges.contains c then 2
  else 1

end Unicode

/-- Texts as Unicode and a terminal have them. -/
instance unicodeTypography : Typography where
  clusters := clustersBy Unicode.graphemeClass Unicode.breakStep
  charColumns := Unicode.charColumns

end ShellLine
