import CalendarRules.Json.Source

/-! # The value of a JSON text -/

namespace CalendarRules.Json

/-! ## Text -/

def isHighUnit (n : Nat) : Bool := 0xd800 ≤ n && n ≤ 0xdbff

def isLowUnit (n : Nat) : Bool := 0xdc00 ≤ n && n ≤ 0xdfff

/-- Two units of a pair make one character, and a half of a pair alone makes none. -/
def joinPieces? : List Piece → Option (List Char)
  | [] => some []
  | .plain c :: ps => do some (c :: (← joinPieces? ps))
  | .unit high :: ps =>
    if isHighUnit high then
      match ps with
      | .unit low :: ps =>
        if isLowUnit low then do
          let c := Char.ofNat (0x10000 + (high - 0xd800) * 0x400 + (low - 0xdc00))
          some (c :: (← joinPieces? ps))
        else none
      | _ => none
    else if isLowUnit high then none
    else do some (Char.ofNat high :: (← joinPieces? ps))

def textOf? (ps : List Piece) : Option String := (joinPieces? ps).map String.ofList

/-! ## Numbers -/

def maxUnsigned : Nat := 0xffffffffffffffff

/-- The greatest size of a negative number in 64 bits. -/
def maxNegated : Nat := 0x8000000000000000

/-- The digits are added as long as the number fits in 64 bits. The digits after that are left
over. -/
def addDigits (n : Nat) : List Nat → Nat × List Nat
  | [] => (n, [])
  | d :: ds => if 10 * n + d ≤ maxUnsigned then addDigits (10 * n + d) ds else (n, d :: ds)

namespace Literal

/-- The number as a binary one: the digits that fit in 64 bits, times a power of ten. -/
def real? (l : Literal) : Option Number := do
  let (n, dropped) := addDigits 0 l.whole
  let (n, unused) := addDigits n l.fraction
  let used := l.fraction.length - unused.length
  let x ← Decimal.Binary.ofNat? n
  let x ← x.scale? ((dropped.length : Int) - used + l.exponent.getD 0)
  some (.real l.negative x)

/-- A whole number that fits in 64 bits keeps its digits. Minus zero is a binary number. -/
def number? (l : Literal) : Option Number :=
  let n := ofDigits l.whole
  if l.fraction.isEmpty && l.exponent.isNone then
    if !l.negative && n ≤ maxUnsigned then some (.whole n)
    else if l.negative && 0 < n && n ≤ maxNegated then some (.whole (-n))
    else l.real?
  else l.real?

end Literal

/-! ## Values -/

/-- A whole text may nest lists and objects so many deep. -/
def maxNesting : Nat := 127

mutual

/-- The value of a part in which lists and objects may nest `room` deep. -/
def Source.value? (room : Nat) : Source → Option Value
  | .null => some .null
  | .bool b => some (.bool b)
  | .number l => l.number?.map .number
  | .text ps => (textOf? ps).map .text
  | .list items => if room = 0 then none else (itemValues? (room - 1) items).map .list
  | .object members => if room = 0 then none else (memberValues? (room - 1) members).map .object

def itemValues? (room : Nat) : List Source → Option (List Value)
  | [] => some []
  | s :: ss => do
    let v ← s.value? room
    some (v :: (← itemValues? room ss))

def memberValues? (room : Nat) : List (List Piece × Source) → Option (List (String × Value))
  | [] => some []
  | (name, s) :: ms => do
    let name ← textOf? name
    let v ← s.value? room
    some ((name, v) :: (← memberValues? room ms))

end

/-- The value of a whole text. -/
def Value.ofString? (s : String) : Option Value := do (← Source.ofString? s).value? maxNesting

end CalendarRules.Json
