/-!
# Text/Grapheme — the clusters a reader sees as one character

A text is split into clusters by an automaton that looks at one character at a time: marks stay
with the character before them, signs that prepend with the one after, the parts of a Hangul
syllable together, flags in pairs, and pictographs that are joined.

The automaton and the classes it tells apart are those of a library.  Here are only the names of the
classes and of what can be remembered, and `clustersBy`, which splits a text by any classes and any
automaton.  `flatten_clustersBy` says that splitting loses nothing.
-/

namespace ShellLine

/-- The part a character plays in a cluster. -/
inductive GraphemeClass
  | other | carriageReturn | lineFeed | control | extend | spacingMark | joiner | pictograph
  | regional | leading | vowel | trailing | openSyllable | closedSyllable | prepend
  deriving DecidableEq

/-- What the automaton remembers of the characters before. -/
inductive BreakState
  | plain | afterReturn | afterControl | afterPrepend | afterLeading | afterVowel | afterTrailing
  | afterPictograph | afterJoiner | afterRegional
  deriving DecidableEq

/-- An automaton: is there a break before a character of the class, and the state after it. -/
abbrev BreakStep := BreakState → GraphemeClass → Bool × BreakState

variable (classOf : Char → GraphemeClass) (step : BreakStep)

/-- The clusters of a text, where `cluster` holds in reverse the one that is being read. -/
def clustersFrom (state : BreakState) (cluster : List Char) : List Char → List (List Char)
  | [] => [cluster.reverse]
  | c :: s =>
    match step state (classOf c) with
    | (true, state') => cluster.reverse :: clustersFrom state' [c] s
    | (false, state') => clustersFrom state' (c :: cluster) s

/-- The clusters of a text. A cluster begins with the first character, of whatever class. -/
def clustersBy : List Char → List (List Char)
  | [] => []
  | c :: s => clustersFrom classOf step (step .plain (classOf c)).2 [c] s

theorem flatten_clustersFrom : ∀ (s : List Char) (state : BreakState) (cluster : List Char),
    (clustersFrom classOf step state cluster s).flatten = cluster.reverse ++ s
  | [], _, _ => by simp [clustersFrom]
  | c :: s, state, cluster => by
      unfold clustersFrom
      split <;> simp [flatten_clustersFrom s]

/-- The clusters, one after the other, are the text. -/
theorem flatten_clustersBy (s : List Char) : (clustersBy classOf step s).flatten = s := by
  cases s <;> simp [clustersBy, flatten_clustersFrom]

end ShellLine
