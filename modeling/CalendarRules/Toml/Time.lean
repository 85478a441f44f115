import CalendarRules.Time.Moment
import CalendarRules.Toml.Number

/-! # Dates and times in a document

Only their form is checked: nobody asks for their value.
-/

namespace CalendarRules.Toml

/-- A number of exactly `width` digits. -/
def readFixed? (width : Nat) (cs : List Char) : Option (Nat × List Char) :=
  let ds := (cs.take width).filterMap (digitValue? 10)
  if ds.length = width then some (ofDigits 10 ds, cs.drop width) else none

/-- A number of two digits between two bounds. -/
def readBounded? (low high : Nat) (cs : List Char) : Option (Nat × List Char) := do
  let (n, rest) ← readFixed? 2 cs
  if low ≤ n && n ≤ high then some (n, rest) else none

def skipMark? (mark : Char) : List Char → Option (List Char)
  | c :: cs => if c = mark then some cs else none
  | [] => none

def skipDate? (cs : List Char) : Option (List Char) := do
  let (year, cs) ← readFixed? 4 cs
  let (month, cs) ← readBounded? 1 12 (← skipMark? '-' cs)
  let (_, cs) ← readBounded? 1 (Date.monthLength year month) (← skipMark? '-' cs)
  some cs

def skipFraction (cs : List Char) : List Char :=
  match cs with
  | '.' :: c :: rest => if c.isDigit then rest.dropWhile Char.isDigit else cs
  | _ => cs

/-- The time of day, always with seconds. -/
def skipClock? (cs : List Char) : Option (List Char) := do
  let (_, cs) ← readBounded? 0 23 cs
  let (_, cs) ← readBounded? 0 59 (← skipMark? ':' cs)
  let (_, cs) ← readBounded? 0 60 (← skipMark? ':' cs)
  some (skipFraction cs)

def skipOffset? : List Char → Option (List Char)
  | c :: cs =>
    if c = 'Z' || c = 'z' then some cs
    else if c = '+' || c = '-' then do
      let (_, cs) ← readBounded? 0 23 cs
      let (_, cs) ← readBounded? 0 59 (← skipMark? ':' cs)
      some cs
    else none
  | [] => none

/-- A time after a date, with or without an offset. -/
def skipClockPart? : List Char → Option (List Char)
  | c :: cs =>
    if c = 'T' || c = 't' || c = ' ' then do
      let cs ← skipClock? cs
      some ((skipOffset? cs).getD cs)
    else none
  | [] => none

/-- What follows a date, a time of day, or both. -/
def skipTime? (cs : List Char) : Option (List Char) :=
  match skipDate? cs with
  | some cs => some ((skipClockPart? cs).getD cs)
  | none => skipClock? cs

end CalendarRules.Toml
