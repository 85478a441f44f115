/-! # Dates and wall-clock times -/

namespace CalendarRules

structure Date where
  year : Int
  month : Nat
  day : Nat
  deriving DecidableEq, Repr

/-- A date and a time of day. A leap second is second 59 with 1000000000 more nanoseconds. -/
structure Moment where
  date : Date
  hour : Nat
  minute : Nat
  second : Nat
  nanosecond : Nat
  deriving DecidableEq, Repr

namespace Date

def isLeapYear (year : Int) : Bool := year % 4 == 0 && (year % 100 != 0 || year % 400 == 0)

def monthLength (year : Int) (month : Nat) : Nat :=
  if month = 2 then if isLeapYear year then 29 else 28
  else if month = 4 || month = 6 || month = 9 || month = 11 then 30
  else 31

def minYear : Int := -262143

def maxYear : Int := 262142

def isValid (d : Date) : Bool :=
  minYear ≤ d.year && d.year ≤ maxYear && 1 ≤ d.month && d.month ≤ 12 &&
    1 ≤ d.day && d.day ≤ monthLength d.year d.month

/-- The first and the last date. -/
def first : Date := ⟨minYear, 1, 1⟩

def last : Date := ⟨maxYear, 12, 31⟩

/-- The days of the months before `month`. -/
def daysBefore (year : Int) (month : Nat) : Nat :=
  (List.range (month - 1)).foldl (fun days m => days + monthLength year (m + 1)) 0

/-- The number of the day, where the first of January of year 1 is day 1. -/
def dayNumber (d : Date) : Int :=
  let y := d.year - 1
  365 * y + y / 4 - y / 100 + y / 400 + daysBefore d.year d.month + d.day

/-- The day of the week from 0, which is Monday. -/
def weekday (d : Date) : Nat := ((d.dayNumber - 1) % 7).toNat

end Date

namespace Moment

def nanosecondsPerSecond : Nat := 1000000000

def secondsPerDay : Nat := 86400

def secondOfDay (m : Moment) : Nat := m.hour * 3600 + m.minute * 60 + m.second

def minuteOfDay (m : Moment) : Nat := m.hour * 60 + m.minute

/-- The nanoseconds on a line that runs through all days. -/
def instant (m : Moment) : Int :=
  (m.date.dayNumber * secondsPerDay + m.secondOfDay) * nanosecondsPerSecond + m.nanosecond

/-! ## Display -/

def dayName : Nat → String
  | 0 => "Mon"
  | 1 => "Tue"
  | 2 => "Wed"
  | 3 => "Thu"
  | 4 => "Fri"
  | 5 => "Sat"
  | _ => "Sun"

def monthName : Nat → String
  | 1 => "Jan"
  | 2 => "Feb"
  | 3 => "Mar"
  | 4 => "Apr"
  | 5 => "May"
  | 6 => "Jun"
  | 7 => "Jul"
  | 8 => "Aug"
  | 9 => "Sep"
  | 10 => "Oct"
  | 11 => "Nov"
  | _ => "Dec"

def twoDigits (n : Nat) : String := if n < 10 then "0" ++ toString n else toString n

/-- Day of the week, date and time, without the year. -/
def shown (m : Moment) : String :=
  dayName m.date.weekday ++ " " ++ monthName m.date.month ++ " " ++ twoDigits m.date.day ++ " " ++
    twoDigits m.hour ++ ":" ++ twoDigits m.minute

end Moment

end CalendarRules
