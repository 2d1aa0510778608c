import ShellLine.Fields
import ShellLine.Text.MarkTable

/-!
# Text/Width — how many terminal columns a text takes

A text takes the columns of its clusters.  A cluster takes those of its first character, but two
when it is an emoji sequence, and none when it begins with a mark.  A tab counts as one column.

How a text is split into clusters, and how wide a character is, a program asks its libraries: that
is `Typography`, on which all widths depend.

* `columns` counts the columns of a text.
* `cachedColumns` does the same with a cache of the texts that were counted before.
-/

namespace ShellLine

/-- What the libraries know of texts: the clusters of a text, and the columns of a character, which
are negative where it cannot be shown. -/
class Typography where
  clusters : List Char → List (List Char)
  charColumns : Char → Int

/-- Does the character make an emoji of its cluster: the joiner, the emoji variant selector, a skin
tone or half a flag? -/
def marksEmoji (c : Char) : Bool :=
  let n := c.toNat
  n == 0xfe0f || n == 0x200d || (0x1f3fb ≤ n && n ≤ 0x1f3ff) || (0x1f1e6 ≤ n && n ≤ 0x1f1ff)

/-- A control, which takes no column. -/
def isControl (c : Char) : Bool := c.toNat < 0x20 || (0x7f ≤ c.toNat && c.toNat ≤ 0x9f)

/-- A printable character of ASCII. -/
def isPlain (c : Char) : Bool := 0x20 ≤ c.toNat && c.toNat ≤ 0x7e

theorem isControl_iff {c : Char} :
    isControl c = true ↔ c.toNat < 0x20 ∨ 0x7f ≤ c.toNat ∧ c.toNat ≤ 0x9f := by
  simp [isControl]

theorem isPlain_iff {c : Char} : isPlain c = true ↔ 0x20 ≤ c.toNat ∧ c.toNat ≤ 0x7e := by
  simp [isPlain]

theorem not_isControl_of_isPlain {c : Char} (h : isPlain c = true) : isControl c ≠ true := by
  rw [isPlain_iff] at h
  rw [ne_eq, isControl_iff]
  omega

section

variable [Typography]

/-- The columns of a cluster. -/
def graphemeColumns : List Char → Nat
  | [] => 0
  | [c] => if isControl c then 0 else (Typography.charColumns c).toNat
  | c :: s =>
    if (c :: s).any marksEmoji || 0x1f000 ≤ c.toNat then 2
    else if isMarkOrFormat c then 0
    else (Typography.charColumns c).toNat

/-- The columns of a cluster in a text, where a tab counts. -/
def clusterColumns (cluster : List Char) : Nat :=
  if cluster = ['\t'] then 1 else graphemeColumns cluster

/-- The columns of the clusters of a text. -/
def countColumns (s : List Char) : Nat :=
  ((Typography.clusters s).map clusterColumns).foldr (· + ·) 0

/-- The columns of a text. Plain text takes one for each character. -/
def columns (s : List Char) : Nat := if s.all isPlain then s.length else countColumns s

end

/-! ## The cache -/

/-- The columns of some texts. -/
abbrev WidthCache := Fields Nat

namespace WidthCache

/-- How many texts are remembered at most. -/
def limit : Nat := 256

/-- Remember the columns of a text. A full cache is emptied first. -/
def remember (cache : WidthCache) (s : List Char) (n : Nat) : WidthCache :=
  Fields.put s n (if limit ≤ cache.length then [] else cache)

end WidthCache

section

variable [Typography]

/-- The columns of a text, which are taken from the cache or remembered there, and the cache after
that. Neither is done for plain text. -/
def cachedColumns (cache : WidthCache) (s : List Char) : Nat × WidthCache :=
  if s = [] then (0, cache)
  else if s.all isPlain then (s.length, cache)
  else
    match Fields.get? s cache with
    | some n => (n, cache)
    | none => (countColumns s, cache.remember s (countColumns s))

/-- The cache after some texts have been counted, one after the other. -/
def cacheAfter (texts : List (List Char)) : WidthCache :=
  texts.foldl (fun cache s => (cachedColumns cache s).2) []

end

end ShellLine
