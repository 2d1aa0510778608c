/-!
# Text/Styling — a text without the sequences that style a terminal

A styling sequence is the escape character and `[`, then parameters, then intermediate characters,
then one final character.  The three kinds of characters have nothing in common, so a sequence can
be read in one way only; where the final character is missing there is no sequence, and the text
stays as it is.

`Styling.after?` finds the end of a sequence, `unstyled` leaves all sequences out.
-/

namespace ShellLine

namespace Styling

/-- A parameter: from `0` to `?`. -/
def isParameter (c : Char) : Bool := 0x30 ≤ c.toNat && c.toNat ≤ 0x3f

/-- An intermediate character: from the space to `/`. -/
def isIntermediate (c : Char) : Bool := 0x20 ≤ c.toNat && c.toNat ≤ 0x2f

/-- A final character: from `@` to `~`. -/
def isFinal (c : Char) : Bool := 0x40 ≤ c.toNat && c.toNat ≤ 0x7e

/-- What follows the final character, which has to be the first of the text. -/
def afterFinal? : List Char → Option (List Char)
  | c :: s => if isFinal c then some s else none
  | [] => none

/-- What follows a styling sequence of which the escape character has been read. -/
def after? : List Char → Option (List Char)
  | '[' :: s => afterFinal? ((s.dropWhile isParameter).dropWhile isIntermediate)
  | _ => none

theorem length_afterFinal? {s rest : List Char} (h : afterFinal? s = some rest) :
    rest.length < s.length := by
  cases s with
  | nil => simp [afterFinal?] at h
  | cons c s =>
    simp only [afterFinal?] at h
    split at h
    · simp only [Option.some.injEq] at h
      simp [h]
    · simp at h

/-- A sequence takes at least one character. -/
theorem length_after? {s rest : List Char} (h : after? s = some rest) :
    rest.length < s.length := by
  unfold after? at h
  split at h
  · rename_i s
    have h1 := length_afterFinal? h
    have h2 := ((s.dropWhile isParameter).dropWhile_sublist isIntermediate).length_le
    have h3 := (s.dropWhile_sublist isParameter).length_le
    simp only [List.length_cons]
    omega
  · simp at h

end Styling

/-- The text without its styling sequences. -/
def unstyled : List Char → List Char
  | [] => []
  | c :: s =>
    if c = '\x1b' then
      match h : Styling.after? s with
      | some rest =>
        have := Styling.length_after? h
        unstyled rest
      | none => c :: unstyled s
    else c :: unstyled s
termination_by s => s.length
decreasing_by all_goals simp only [List.length_cons]; omega

end ShellLine
