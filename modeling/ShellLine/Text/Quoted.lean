import ShellLine.Text.Hex
import ShellLine.Text.Printable

/-!
# Text/Quoted — a text as shown in messages

A text is shown between single quotes, or between double quotes when it holds a single quote and no
double one.  The quote in use, the backslash and the characters that cannot be printed are escaped.
-/

namespace ShellLine

/-- The quote a text is shown in. -/
def shownQuote (s : List Char) : Char :=
  if s.contains '\x27' && !s.contains '\x22' then '\x22' else '\x27'

/-- A character as shown inside the quotes `q`. -/
def shownChar (q c : Char) : List Char :=
  let n := c.toNat
  if c = q ∨ c = '\x5c' then ['\x5c', c]
  else if c = '\n' then ['\x5c', 'n']
  else if c = '\r' then ['\x5c', 'r']
  else if c = '\t' then ['\x5c', 't']
  else if isPrintable c then [c]
  else if n < 0x100 then '\x5c' :: 'x' :: Hex.padded 2 n
  else if n < 0x10000 then '\x5c' :: 'u' :: Hex.padded 4 n
  else '\x5c' :: 'U' :: Hex.padded 8 n

/-- A text as shown in messages. -/
def shownText (s : List Char) : List Char :=
  let q := shownQuote s
  q :: s.flatMap (shownChar q) ++ [q]

end ShellLine
