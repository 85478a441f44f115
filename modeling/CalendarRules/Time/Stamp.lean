import CalendarRules.Decimal.Binary
import CalendarRules.Text.Blank
import CalendarRules.Time.Moment

/-! # Reading timestamps

A timestamp is read as the wall-clock time of its own offset. It has one of a few shapes, which are
tried in order. Blanks may stand before every number and every offset.
-/

namespace CalendarRules.Stamp

open Text

inductive Field where
  | year
  | month
  | day
  | hour
  | minute
  | second
  | fraction
  | offset
  deriving DecidableEq, Repr

/-- A part of a shape: a field, a character, or any number of blanks. -/
inductive Part where
  | field (f : Field)
  | literal (c : Char)
  | blanks
  deriving DecidableEq, Repr

/-! ## Shapes -/

def dateParts : List Part :=
  [.field .year, .literal '-', .field .month, .literal '-', .field .day]

def hourParts : List Part := [.field .hour, .literal ':', .field .minute]

def secondParts : List Part := [.literal ':', .field .second, .field .fraction]

/-- Seconds may only be left out after a `T`. -/
def shapes : List (List Part) :=
  [dateParts ++ .literal 'T' :: hourParts ++ secondParts ++ [.field .offset],
    dateParts ++ .blanks :: hourParts ++ secondParts ++ [.field .offset],
    dateParts ++ .literal 'T' :: hourParts ++ [.field .offset],
    dateParts ++ .literal 'T' :: hourParts ++ secondParts,
    dateParts ++ .blanks :: hourParts ++ secondParts,
    dateParts ++ .literal 'T' :: hourParts,
    dateParts]

/-! ## Fields -/

/-- The fields read so far. -/
structure Reading where
  year : Int := 0
  month : Nat := 0
  day : Nat := 0
  hour : Nat := 0
  minute : Nat := 0
  second : Nat := 0
  nanosecond : Nat := 0
  offset : Option Int := none
  deriving DecidableEq, Repr

def ofDigits (ds : List Char) : Nat := ds.foldl (fun n d => 10 * n + (d.toNat - '0'.toNat)) 0

/-- The longest run of digits. -/
def readDigits? (cs : List Char) : Option (List Char × List Char) :=
  match cs.takeWhile Char.isDigit with
  | [] => none
  | ds => some (ds, cs.dropWhile Char.isDigit)

/-- A number of at most `width` digits. -/
def readNumber? (width : Nat) (cs : List Char) : Option (Nat × List Char) :=
  match (cs.take width).takeWhile Char.isDigit with
  | [] => none
  | ds => some (ofDigits ds, cs.drop ds.length)

/-- A year has at most four digits, or a sign and any number of digits. -/
def readYear? : List Char → Option (Int × List Char)
  | '-' :: cs => (readDigits? cs).map fun (ds, cs) => (-(ofDigits ds : Int), cs)
  | '+' :: cs => (readDigits? cs).map fun (ds, cs) => ((ofDigits ds : Int), cs)
  | cs => (readNumber? 4 cs).map fun (n, cs) => ((n : Int), cs)

/-- A fraction may be missing. It counts to nine digits, and the digits after them are passed
over. -/
def readFraction? : List Char → Option (Nat × List Char)
  | '.' :: cs => do
    let (ds, cs) ← readDigits? cs
    let ds := ds.take 9
    some (ofDigits ds * Decimal.tenTo (9 - ds.length), cs)
  | cs => some (0, cs)

/-- Plus, hyphen or minus sign, true if it takes away. -/
def readSign? : List Char → Option (Bool × List Char)
  | '+' :: cs => some (false, cs)
  | '-' :: cs => some (true, cs)
  | '−' :: cs => some (true, cs)
  | _ => none

def readTwoDigits? : List Char → Option (Nat × List Char)
  | c :: d :: cs => if c.isDigit && d.isDigit then some (ofDigits [c, d], cs) else none
  | _ => none

/-- Hours and minutes with colons and blanks between them, in seconds. -/
def readOffset? (cs : List Char) : Option (Int × List Char) := do
  let (negative, cs) ← readSign? cs
  let (hours, cs) ← readTwoDigits? cs
  let (minutes, cs) ← readTwoDigits? (cs.dropWhile fun c => c == ':' || isBlank c)
  if 59 < minutes then none
  else
    let seconds : Int := hours * 3600 + minutes * 60
    some (if negative then -seconds else seconds, cs)

def readField? (f : Field) (r : Reading) (cs : List Char) : Option (Reading × List Char) :=
  let start := trimStartChars cs
  match f with
  | .year => (readYear? start).map fun (n, cs) => ({ r with year := n }, cs)
  | .month => (readNumber? 2 start).map fun (n, cs) => ({ r with month := n }, cs)
  | .day => (readNumber? 2 start).map fun (n, cs) => ({ r with day := n }, cs)
  | .hour => (readNumber? 2 start).map fun (n, cs) => ({ r with hour := n }, cs)
  | .minute => (readNumber? 2 start).map fun (n, cs) => ({ r with minute := n }, cs)
  | .second => (readNumber? 2 start).map fun (n, cs) => ({ r with second := n }, cs)
  | .fraction => (readFraction? cs).map fun (n, cs) => ({ r with nanosecond := n }, cs)
  | .offset => (readOffset? start).map fun (n, cs) => ({ r with offset := some n }, cs)

/-- Reads a whole text of the shape. -/
def readShape? : List Part → Reading → List Char → Option Reading
  | [], r, cs => if cs.isEmpty then some r else none
  | .literal c :: parts, r, cs =>
    match cs with
    | d :: cs => if d = c then readShape? parts r cs else none
    | [] => none
  | .blanks :: parts, r, cs => readShape? parts r (trimStartChars cs)
  | .field f :: parts, r, cs => do
    let (r, cs) ← readField? f r cs
    readShape? parts r cs

/-! ## Moments -/

namespace Reading

def date (r : Reading) : Date := ⟨r.year, r.month, r.day⟩

/-- Second 60 is a leap second. -/
def moment (r : Reading) : Moment :=
  if r.second = 60 then
    ⟨r.date, r.hour, r.minute, 59, r.nanosecond + Moment.nanosecondsPerSecond⟩
  else ⟨r.date, r.hour, r.minute, r.second, r.nanosecond⟩

/-- An offset is less than a day, and the moment without it lies between the first and the last
date too. -/
def offsetFits (r : Reading) : Bool :=
  match r.offset with
  | none => true
  | some offset =>
    let day : Int := Moment.secondsPerDay
    let seconds := r.moment.secondOfDay - offset
    offset.natAbs < Moment.secondsPerDay && !(seconds < 0 && r.date == Date.first) &&
      !(day ≤ seconds && r.date == Date.last)

def moment? (r : Reading) : Option Moment :=
  if r.date.isValid && r.hour ≤ 23 && r.minute ≤ 59 && r.second ≤ 60 && r.offsetFits then
    some r.moment
  else none

end Reading

/-- A `Z` at the end is the offset zero. -/
def expandZulu (cs : List Char) : List Char :=
  match cs.reverse with
  | c :: start => if c = 'Z' || c = 'z' then start.reverse ++ "+00:00".toList else cs
  | [] => []

/-- The moment that a text gives. The first shape that fits counts. -/
def parse? (raw : String) : Option Moment :=
  let cs := expandZulu (trimChars raw.toList)
  shapes.findSome? fun shape => (readShape? shape {} cs).bind (·.moment?)

end CalendarRules.Stamp
