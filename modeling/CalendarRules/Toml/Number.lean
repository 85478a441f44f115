import CalendarRules.Decimal.Binary

/-! # Numbers in a document -/

namespace CalendarRules.Toml

open Decimal

/-! ## Digits -/

/-- The value of a digit, which may be a letter, if it is one in this base. -/
def digitValue? (base : Nat) (c : Char) : Option Nat :=
  let value :=
    if '0' ≤ c && c ≤ '9' then c.toNat - '0'.toNat
    else if 'a' ≤ c && c ≤ 'z' then c.toNat - 'a'.toNat + 10
    else if 'A' ≤ c && c ≤ 'Z' then c.toNat - 'A'.toNat + 10
    else base
  if value < base then some value else none

/-- The digits that follow a digit. An underscore may stand before each of them. -/
def moreDigits (base : Nat) : List Char → List Nat × List Char
  | [] => ([], [])
  | '_' :: c :: cs =>
    match digitValue? base c with
    | some d =>
      let (ds, rest) := moreDigits base cs
      (d :: ds, rest)
    | none => ([], '_' :: c :: cs)
  | c :: cs =>
    match digitValue? base c with
    | some d =>
      let (ds, rest) := moreDigits base cs
      (d :: ds, rest)
    | none => ([], c :: cs)

/-- One digit or more. -/
def readDigits? (base : Nat) : List Char → Option (List Nat × List Char)
  | [] => none
  | c :: cs => do
    let d ← digitValue? base c
    let (ds, rest) := moreDigits base cs
    some (d :: ds, rest)

def ofDigits (base : Nat) (ds : List Nat) : Nat := ds.foldl (fun n d => base * n + d) 0

/-- A sign, true if it is minus. -/
def readSign : List Char → Bool × List Char
  | '-' :: cs => (true, cs)
  | '+' :: cs => (false, cs)
  | cs => (false, cs)

/-- The digits of a decimal number. A zero in front stands alone. -/
def readDecimal? : List Char → Option (List Nat × List Char)
  | '0' :: cs => some ([0], cs)
  | cs => readDigits? 10 cs

/-! ## Whole numbers -/

def minWhole : Int := -0x8000000000000000

def maxWhole : Int := 0x7fffffffffffffff

/-- Whole numbers have 64 bits with a sign. -/
def fitsWhole (n : Int) : Bool := minWhole ≤ n && n ≤ maxWhole

def wholeOf? (negative : Bool) (n : Nat) : Option Int :=
  let n : Int := if negative then -n else n
  if fitsWhole n then some n else none

def readInBase? (base : Nat) (cs : List Char) : Option (Int × List Char) := do
  let (ds, rest) ← readDigits? base cs
  some (← wholeOf? false (ofDigits base ds), rest)

/-- Bases other than ten have a mark and no sign. -/
def readWhole? : List Char → Option (Int × List Char)
  | '0' :: 'x' :: cs => readInBase? 16 cs
  | '0' :: 'o' :: cs => readInBase? 8 cs
  | '0' :: 'b' :: cs => readInBase? 2 cs
  | cs => do
    let (negative, cs) := readSign cs
    let (ds, rest) ← readDecimal? cs
    some (← wholeOf? negative (ofDigits 10 ds), rest)

/-! ## Numbers with a fraction or an exponent -/

def readExponent? : List Char → Option (Int × List Char)
  | c :: cs =>
    if c = 'e' || c = 'E' then do
      let (negative, cs) := readSign cs
      let (ds, rest) ← readDigits? 10 cs
      let n : Int := ofDigits 10 ds
      some (if negative then -n else n, rest)
    else none
  | [] => none

/-- The fraction and the exponent. At least one of them is there. -/
def readPlaces? : List Char → Option (List Nat × Int × List Char)
  | '.' :: cs => do
    let (fraction, cs) ← readDigits? 10 cs
    match readExponent? cs with
    | some (exponent, cs) => some (fraction, exponent, cs)
    | none => some (fraction, 0, cs)
  | cs => do
    let (exponent, cs) ← readExponent? cs
    some ([], exponent, cs)

/-- The number of these digits times a power of ten does not round to infinity. -/
def isFinite (ds : List Nat) (exponent : Int) : Bool :=
  let ds := ds.dropWhile (· == 0)
  let places : Int := ds.length + exponent
  if ds.isEmpty || places ≤ 0 then true
  else if Binary.maxPower + 1 < places then false
  else
    (Binary.ofRatio? (ofDigits 10 ds * tenTo exponent.toNat) (tenTo (-exponent).toNat)).isSome

/-- Too large a number is refused, unless it is negative. -/
def skipReal? (cs : List Char) : Option (List Char) := do
  let (negative, cs) := readSign cs
  match cs with
  | 'i' :: 'n' :: 'f' :: rest => some rest
  | 'n' :: 'a' :: 'n' :: rest => some rest
  | cs =>
    let (whole, cs) ← readDecimal? cs
    let (fraction, exponent, rest) ← readPlaces? cs
    if negative || isFinite (whole ++ fraction) (exponent - fraction.length) then some rest
    else none

end CalendarRules.Toml
