import ShellLine.Text.Blank

/-!
# Number/Integer — whole numbers in decimal

A whole number is written in the digits of ASCII.  It may be read in the decimal digits of any
script, with a sign in front, single underscores between digits and white space around it.  Numbers
of more than `maxDigits` digits are neither read nor written.
-/

namespace ShellLine.Integer

/-- The text of a whole number. -/
def text (n : Int) : List Char :=
  if n < 0 then '-' :: Nat.toDigits 10 n.natAbs else Nat.toDigits 10 n.natAbs

/-- The zeros of the scripts; the other digits of a script follow its zero. -/
def zeros : List Nat :=
  [0x30, 0x660, 0x6f0, 0x7c0, 0x966, 0x9e6, 0xa66, 0xae6, 0xb66, 0xbe6, 0xc66, 0xce6, 0xd66,
   0xde6, 0xe50, 0xed0, 0xf20, 0x1040, 0x1090, 0x17e0, 0x1810, 0x1946, 0x19d0, 0x1a80, 0x1a90,
   0x1b50, 0x1bb0, 0x1c40, 0x1c50, 0xa620, 0xa8d0, 0xa900, 0xa9d0, 0xa9f0, 0xaa50, 0xabf0, 0xff10,
   0x104a0, 0x10d30, 0x11066, 0x110f0, 0x11136, 0x111d0, 0x112f0, 0x11450, 0x114d0, 0x11650,
   0x116c0, 0x11730, 0x118e0, 0x11950, 0x11c50, 0x11d50, 0x11da0, 0x16a60, 0x16ac0, 0x16b50,
   0x1d7ce, 0x1d7d8, 0x1d7e2, 0x1d7ec, 0x1d7f6, 0x1e140, 0x1e2f0, 0x1e950, 0x1fbf0]

/-- The value of a decimal digit of any script. -/
def digit? (c : Char) : Option Nat :=
  (zeros.find? fun z => z ≤ c.toNat && c.toNat ≤ z + 9).map (c.toNat - ·)

/-- The most digits a number may be read from or written with, its sign left out. -/
def maxDigits : Nat := 4300

/-- Can the number be written? -/
def isWritable (n : Int) : Bool := (Nat.toDigits 10 n.natAbs).length ≤ maxDigits

/-- White space around a number: blanks other than the information separators. -/
def isSpace (c : Char) : Bool := isBlank c && !(28 ≤ c.toNat && c.toNat ≤ 31)

/-- The digits of a number without its sign, where `after` says that a digit stands just before. -/
def digits? : (after : Bool) → List Char → Option (List Nat)
  | after, [] => if after then some [] else none
  | after, c :: s =>
    if c = '_' then if after then digits? false s else none
    else
      match digit? c with
      | some d => (digits? true s).map (d :: ·)
      | none => none

/-- The number that a text without sign and white space gives. -/
def natural? (s : List Char) : Option Nat :=
  match digits? false s with
  | some ds => if ds.length ≤ maxDigits then some (ds.foldl (fun n d => 10 * n + d) 0) else none
  | none => none

/-- The whole number a text gives. -/
def parse? (s : List Char) : Option Int :=
  let s := ((s.dropWhile isSpace).reverse.dropWhile isSpace).reverse
  match s with
  | '-' :: s => (natural? s).map fun n => -(n : Int)
  | '+' :: s => (natural? s).map fun n => (n : Int)
  | s => (natural? s).map fun n => (n : Int)

end ShellLine.Integer
