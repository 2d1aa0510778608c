/-!
# Number/Double — numbers of 53 binary digits, read from and written in decimal

A double is `m · 2 ^ q` with `m < 2 ^ 53` and `-1074 ≤ q ≤ 971`, an infinity, or no number at all.
Reading a decimal gives the nearest double, a half going to the even neighbour; writing one gives
the fewest digits that read back, and the nearest of those.  All arithmetic is exact.

* `Double.ofDecimal` reads `digits · 10 ^ e`.
* `Double.shortest` finds the digits, `Double.text` sets the point and the exponent.
-/

namespace ShellLine

/-- A quotient of natural numbers. -/
structure Ratio where
  num : Nat
  den : Nat

namespace Ratio

/-- The quotient times a power with a positive or negative exponent. -/
def mulPow (r : Ratio) (base : Nat) (e : Int) : Ratio :=
  if 0 ≤ e then ⟨r.num * base.pow e.toNat, r.den⟩ else ⟨r.num, r.den * base.pow (-e).toNat⟩

/-- The greatest whole number that is not above the quotient. -/
def floor (r : Ratio) : Nat := r.num / r.den

/-- Is `n` nearer to the quotient than `n + 1`, where the quotient lies between them? A half counts
as near to the even one. -/
def nearFloor (r : Ratio) (n : Nat) : Bool :=
  let twice := 2 * r.num
  let middle := (2 * n + 1) * r.den
  twice < middle || (twice == middle && n % 2 == 0)

/-- The nearest whole number, a half going to the even neighbour. -/
def round (r : Ratio) : Nat := if r.nearFloor r.floor then r.floor else r.floor + 1

/-- The greatest `e` for which `10 ^ e` is not above the quotient, which is positive. -/
def log10 (r : Ratio) : Int :=
  let e : Int := ((Nat.toDigits 10 r.num).length : Int) - (Nat.toDigits 10 r.den).length
  let scaled := r.mulPow 10 (-e)
  if scaled.den ≤ scaled.num then e else e - 1

end Ratio

/-- A number of 53 binary digits. -/
inductive Double
  | finite (negative : Bool) (m : Nat) (q : Int)
  | infinite (negative : Bool)
  | notANumber
  deriving DecidableEq, Inhabited

namespace Double

/-- The least exponent. -/
def minExponent : Int := -1074

/-- The greatest exponent. -/
def maxExponent : Int := 971

/-- Zero with a sign. -/
def zero (negative : Bool) : Double := finite negative 0 minExponent

/-- Is the number zero, of either sign? -/
def isZero : Double → Bool
  | finite _ m _ => m == 0
  | _ => false

/-- The double nearest to a positive quotient. -/
def ofRatio (negative : Bool) (r : Ratio) : Double :=
  let guess : Int := max ((r.num.log2 : Int) - r.den.log2 - 52) minExponent
  let low := (r.mulPow 2 (-guess)).floor < Nat.pow 2 52 && minExponent < guess
  let q := if low then guess - 1 else guess
  let m := (r.mulPow 2 (-q)).round
  let (m, q) := if m = Nat.pow 2 53 then (Nat.pow 2 52, q + 1) else (m, q)
  if maxExponent < q then infinite negative else finite negative m q

/-- The double nearest to `digits · 10 ^ e`. Numbers with more than 310 places before the point are
infinite, and those with more than 330 zeros after it are zero. -/
def ofDecimal (negative : Bool) (digits : Nat) (e : Int) : Double :=
  let places : Int := (Nat.toDigits 10 digits).length + e
  if digits = 0 ∨ places < -330 then zero negative
  else if 310 < places then infinite negative
  else ofRatio negative (Ratio.mulPow ⟨digits, 1⟩ 10 e)

/-- The decimals of one grid, the multiples of `10 ^ k`, that lie next to a value and between the
bounds within which a decimal reads back as it; the nearer one if both do. -/
def onGrid? (value low high : Ratio) (closed : Bool) (k : Int) : Option (Nat × Int) :=
  let value := value.mulPow 10 (-k)
  let low := low.mulPow 10 (-k)
  let high := high.mulPow 10 (-k)
  let n := value.floor
  let below := low.num < n * low.den || (closed && low.num == n * low.den)
  let above := (n + 1) * high.den < high.num || (closed && (n + 1) * high.den == high.num)
  match below, above with
  | false, false => none
  | true, false => some (n, k)
  | false, true => some (n + 1, k)
  | true, true => some (if value.nearFloor n then n else n + 1, k)

/-- The digits and the exponent of the shortest decimal that reads back as `m · 2 ^ q`. -/
def shortest (m : Nat) (q : Int) : Nat × Int :=
  let value := Ratio.mulPow ⟨4 * m, 1⟩ 2 (q - 2)
  let gap := if m = Nat.pow 2 52 ∧ minExponent < q then 1 else 2
  let low := Ratio.mulPow ⟨4 * m - gap, 1⟩ 2 (q - 2)
  let high := Ratio.mulPow ⟨4 * m + 2, 1⟩ 2 (q - 2)
  let top := value.log10
  let found := (List.range 17).findSome? fun (n : Nat) =>
    onGrid? value low high (m % 2 == 0) (top - n)
  found.getD (m, q)

/-- The digits of a number without the zeros at its end, and how many places there are before the
point. -/
def placed (d : Nat) (k : Int) : List Char × Int :=
  let all := Nat.toDigits 10 d
  ((all.reverse.dropWhile (· == '0')).reverse, all.length + k)

/-- Set the point among digits: positional when the first digit stands at most sixteen places
before the point and at most four after it, else with an exponent of at least two digits. -/
def setPoint (digits : List Char) (places : Int) : List Char :=
  if places ≤ -4 ∨ 16 < places then
    let e := places - 1
    let exponent := Nat.toDigits 10 e.natAbs
    let fraction := if digits.length ≤ 1 then [] else '.' :: digits.drop 1
    digits.take 1 ++ fraction ++ 'e' :: (if e < 0 then '-' else '+') ::
      (if exponent.length < 2 then '0' :: exponent else exponent)
  else if places ≤ 0 then
    '0' :: '.' :: List.replicate (-places).toNat '0' ++ digits
  else
    let n := places.toNat
    if digits.length ≤ n then digits ++ List.replicate (n - digits.length) '0' ++ ['.', '0']
    else digits.take n ++ '.' :: digits.drop n

/-- The text of a finite number: the fewest digits that read back. -/
def finiteText (negative : Bool) (m : Nat) (q : Int) : List Char :=
  let sign := if negative then ['-'] else []
  if m = 0 then sign ++ ['0', '.', '0']
  else
    let (d, k) := shortest m q
    let (digits, places) := placed d k
    sign ++ setPoint digits places

end Double

end ShellLine
