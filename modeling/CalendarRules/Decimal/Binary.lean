/-! # Binary numbers of 53 places

A finite number is `significand * 2 ^ exponent`. The significand has at most 53 binary places and
the exponent lies between -1074 and 971. Every operation is exact up to one rounding to the
nearest such number, and a half goes to the even neighbour.
-/

namespace CalendarRules.Decimal

def twoTo (n : Nat) : Nat := Nat.pow 2 n

def tenTo (n : Nat) : Nat := Nat.pow 10 n

/-- The quotient rounded to the nearest whole number, a half to the even one. -/
def roundDiv (num den : Nat) : Nat :=
  let q := num / den
  let r := num % den
  if 2 * r < den || (2 * r == den && q % 2 == 0) then q else q + 1

structure Binary where
  significand : Nat
  exponent : Int
  deriving DecidableEq, Repr

namespace Binary

/-- A significand is below this power of two. -/
def places : Nat := 53

def minExponent : Int := -1074

def maxExponent : Int := 971

def zero : Binary := ⟨0, minExponent⟩

def isZero (x : Binary) : Bool := x.significand == 0

/-- The greatest power of two that is at most the fraction `num / den`. -/
def log2Ratio (num den : Nat) : Int :=
  let e : Int := (Nat.log2 num : Int) - (Nat.log2 den : Int)
  if num * twoTo (-e).toNat < den * twoTo e.toNat then e - 1 else e

/-- The nearest number to `num / den`, or none when that is too large. -/
def ofRatio? (num den : Nat) : Option Binary :=
  if num = 0 then some zero
  else
    let e := max (log2Ratio num den - (places - 1)) minExponent
    let m := roundDiv (num * twoTo (-e).toNat) (den * twoTo e.toNat)
    let x : Binary := if m < twoTo places then ⟨m, e⟩ else ⟨m / 2, e + 1⟩
    if x.exponent ≤ maxExponent then some x else none

def ofNat? (n : Nat) : Option Binary := ofRatio? n 1

def mul? (x y : Binary) : Option Binary :=
  let e := x.exponent + y.exponent
  ofRatio? (x.significand * y.significand * twoTo e.toNat) (twoTo (-e).toNat)

/-- The quotient by a number that is not zero. -/
def div? (x y : Binary) : Option Binary :=
  let e := x.exponent - y.exponent
  ofRatio? (x.significand * twoTo e.toNat) (y.significand * twoTo (-e).toNat)

/-- The nearest number to a power of ten. -/
def powerOfTen? (n : Nat) : Option Binary := ofNat? (tenTo n)

/-- The greatest power of ten that is below the largest number. -/
def maxPower : Nat := 308

/-- The number `x` times `10 ^ n`, with one rounding for the power and one for the product. A
power below the range is divided out in two steps, and less than that leaves nothing. -/
def scale? (x : Binary) (n : Int) : Option Binary :=
  if x.isZero then some zero
  else if 0 ≤ n then
    if n ≤ maxPower then do x.mul? (← powerOfTen? n.toNat) else none
  else if -maxPower ≤ n then do x.div? (← powerOfTen? (-n).toNat)
  else if -(2 * maxPower) ≤ n then do
    let y ← x.div? (← powerOfTen? maxPower)
    y.div? (← powerOfTen? (-n - maxPower).toNat)
  else some zero

end Binary

end CalendarRules.Decimal
