import CalendarRules.Decimal.Binary

/-! # The shortest decimal text of a binary number

The text has the fewest digits that round back to the number, and of the texts with so many digits
it is the nearest to the number. A tie goes to the even digit.
-/

namespace CalendarRules.Decimal

/-- The number `digits * 10 ^ exponent`. -/
structure Digits where
  digits : Nat
  exponent : Int
  deriving DecidableEq, Repr

def decimalLength (n : Nat) : Nat := (Nat.toDigits 10 n).length

/-- The exponent of the first digit of the fraction `num / den`, which is not zero. -/
def leadingExponent (num den : Nat) : Int :=
  if den ≤ num then (decimalLength (num / den) : Int) - 1
  else
    let k := decimalLength (den / num)
    if den ≤ num * tenTo (k - 1) then 1 - (k : Int) else -(k : Int)

namespace Binary

/-- The number as a fraction. -/
def num (x : Binary) : Nat := x.significand * twoTo x.exponent.toNat

def den (x : Binary) : Nat := twoTo (-x.exponent).toNat

/-- Where the numbers that round to `x` begin and end, in quarters of its last place. -/
def lowQuarter (x : Binary) : Nat :=
  let isPower := x.significand = twoTo (places - 1)
  4 * x.significand - if isPower && minExponent < x.exponent then 1 else 2

def highQuarter (x : Binary) : Nat := 4 * x.significand + 2

/-- The decimal `c * 10 ^ p` rounds to `x`. An end of the interval does if the significand is
even. -/
def rounds (x : Binary) (c : Nat) (p : Int) : Bool :=
  let two := x.exponent - 2
  let scaled := c * tenTo p.toNat * twoTo (-two).toNat
  let unit := twoTo two.toNat * tenTo (-p).toNat
  let low := x.lowQuarter * unit
  let high := x.highQuarter * unit
  if x.significand % 2 = 0 then low ≤ scaled && scaled ≤ high else low < scaled && scaled < high

/-- The nearest multiple of `10 ^ p` that rounds to `x`. -/
def onGrid? (x : Binary) (p : Int) : Option Digits :=
  let num := x.num * tenTo (-p).toNat
  let den := x.den * tenTo p.toNat
  let below := num / den
  let nearest := roundDiv num den
  let other := if nearest = below then below + 1 else below
  if x.rounds nearest p then some ⟨nearest, p⟩
  else if x.rounds other p then some ⟨other, p⟩
  else none

/-- Seventeen digits are enough for every number. -/
def maxDigits : Nat := 17

/-- The fewest digits that round to `x`, which is not zero. -/
def shortest (x : Binary) : Digits :=
  let e := leadingExponent x.num x.den
  let grids := (List.range maxDigits).map fun (n : Nat) => e - (n : Int)
  (grids.findSome? x.onGrid?).getD ⟨x.num / x.den, 0⟩

end Binary

/-! ## Writing -/

/-- Leading digits and the place of the point after them: `0.` and the digits times
`10 ^ point`. -/
structure Placed where
  digits : List Char
  point : Int
  deriving DecidableEq, Repr

def Digits.placed (d : Digits) : Placed :=
  let cs := Nat.toDigits 10 d.digits
  ⟨(cs.reverse.dropWhile (· == '0')).reverse, d.exponent + cs.length⟩

/-- Numbers with the point within this many places after the first digit are written without an
exponent. -/
def maxPlain : Int := 16

/-- Numbers with fewer than this many zeros after the point are written without an exponent. -/
def maxZeros : Int := 5

def Placed.text (p : Placed) : List Char :=
  let n := p.digits.length
  if 0 < p.point && p.point ≤ maxPlain then
    let k := p.point.toNat
    if n ≤ k then p.digits ++ List.replicate (k - n) '0' ++ ['.', '0']
    else p.digits.take k ++ '.' :: p.digits.drop k
  else if -maxZeros < p.point && p.point ≤ 0 then
    ['0', '.'] ++ List.replicate (-p.point).toNat '0' ++ p.digits
  else
    let e := p.point - 1
    p.digits.take 1 ++ (if n ≤ 1 then [] else '.' :: p.digits.drop 1) ++
      ['e', if e < 0 then '-' else '+'] ++ Nat.toDigits 10 e.natAbs

/-- The text of a number, which always has a point or an exponent. -/
def Binary.text (x : Binary) : List Char :=
  if x.isZero then ['0', '.', '0'] else x.shortest.placed.text

end CalendarRules.Decimal
