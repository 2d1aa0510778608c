import ShellLine.Text.CaseTable

/-!
# Text/Lowercase — the small letters of a text

Each character goes to its small form, on its own but for two: the dotted capital I becomes an `i`
and a dot, and the capital sigma is written in its final form at the end of a word.
-/

namespace ShellLine

/-- The small form of one character. -/
def lowerChar (c : Char) : List Char :=
  if c.toNat = 0x130 then ['i', '\u0307']
  else
    let n := c.toNat
    match lowerRuns.find? fun r => r.first ≤ n && n ≤ r.last && (n - r.first) % r.step == 0 with
    | some r => [Char.ofNat (n + r.shift).toNat]
    | none => [c]

/-- Is the nearest character of a text that is not passed over one with letter case? -/
def meetsCased (s : List Char) : Bool :=
  (s.dropWhile caseIgnorableRanges.contains).head?.any casedRanges.contains

/-- Does a word end between `behind`, nearest character first, and `ahead`? -/
def endsCasedWord (behind ahead : List Char) : Bool := meetsCased behind && !meetsCased ahead

/-- The small letters of `ahead`, where `behind` stands in front of it in reverse. -/
def lowerFrom : List Char → List Char → List Char
  | _, [] => []
  | behind, c :: ahead =>
    let small :=
      if c = '\u03a3' then [if endsCasedWord behind ahead then '\u03c2' else '\u03c3']
      else lowerChar c
    small ++ lowerFrom (c :: behind) ahead

/-- The small letters of a text. -/
def lowercase (s : List Char) : List Char := lowerFrom [] s

end ShellLine
