import CalendarRules.Event.Basic
import CalendarRules.Property
import CalendarRules.Query.Basic
import CalendarRules.Time.Stamp

/-! # Which events a query matches

Nothing fails here: an unknown property, a missing field or a timestamp that cannot be read just
does not match.
-/

namespace CalendarRules

open Text

/-! ## What a term sees of an event -/

namespace Event

def start? (e : Event) : Option Moment := e.startTime.bind Stamp.parse?

def end? (e : Event) : Option Moment := e.endTime.bind Stamp.parse?

/-- The text after the first `@` of an address, up to the next one. -/
def domainOf? (address : String) : Option String :=
  match address.toList.dropWhile (· != '@') with
  | [] => none
  | _ :: cs => some (String.ofList (cs.takeWhile (· != '@')))

/-- The domains of the attendees in lower case. -/
def domains (e : Event) : List String := e.attendees.filterMap fun a => (domainOf? a).map lower

def nanosecondsPerDay : Int := Moment.secondsPerDay * Moment.nanosecondsPerSecond

/-- From one midnight to another at least a day later. Unknown unless both ends can be read. -/
def isAllDay? (e : Event) : Option Bool := do
  let start ← e.start?
  let stop ← e.end?
  some (start.secondOfDay == 0 && stop.secondOfDay == 0 &&
    nanosecondsPerDay ≤ stop.instant - start.instant)

end Event

/-! ## Comparisons -/

namespace Compare

/-- The word stands somewhere in the text. -/
def isInfix (word : List Char) : List Char → Bool
  | [] => word.isEmpty
  | c :: cs => word.isPrefixOf (c :: cs) || isInfix word cs

theorem isInfix_iff (word cs : List Char) : isInfix word cs = true ↔ word <:+: cs := by
  induction cs with
  | nil => simp [isInfix]
  | cons c cs ih =>
    rw [isInfix, Bool.or_eq_true, ih, List.isPrefixOf_iff_prefix, List.infix_cons_iff]

/-- The text in its form for comparison contains the value. -/
def contains (text value : String) : Bool := isInfix value.toList (foldChars text.toList)

theorem contains_iff (text value : String) :
    contains text value = true ↔ value.toList <:+: foldChars text.toList :=
  isInfix_iff ..

/-- The text in lower case. A missing or empty text counts as `absent`. -/
def lowerOr (absent : String) : Option String → String
  | none => absent
  | some s => if s.isEmpty then absent else lower s

def flag? (value : String) : Option Bool :=
  if value ∈ ["yes", "true", "1", "on"] then some true
  else if value ∈ ["no", "false", "0", "off"] then some false
  else none

/-- The value is a flag and the event is known to agree with it. -/
def agrees (value : String) (actual : Option Bool) : Bool :=
  match flag? value, actual with
  | some wanted, some actual => wanted == actual
  | _, _ => false

/-- The day of the week from its name or the first three letters of it. -/
def weekday? (value : String) : Option Nat :=
  ["monday", "tuesday", "wednesday", "thursday", "friday", "saturday", "sunday"].findIdx?
    fun day => day == value || String.ofList (day.toList.take 3) == value

end Compare

/-! ## Times of day -/

inductive Comparison where
  | less
  | lessOrEqual
  | equal
  | greaterOrEqual
  | greater
  deriving DecidableEq, Repr

def Comparison.holds : Comparison → Nat → Nat → Bool
  | less, a, b => a < b
  | lessOrEqual, a, b => a ≤ b
  | equal, a, b => a == b
  | greaterOrEqual, a, b => b ≤ a
  | greater, a, b => b < a

/-- A bound on the time of day, in minutes after midnight. -/
structure TimeTarget where
  comparison : Comparison
  minutes : Nat
  deriving DecidableEq, Repr

namespace TimeTarget

def readComparison : List Char → Comparison × List Char
  | '>' :: '=' :: cs => (.greaterOrEqual, cs)
  | '>' :: cs => (.greater, cs)
  | '<' :: '=' :: cs => (.lessOrEqual, cs)
  | '<' :: cs => (.less, cs)
  | cs => (.equal, cs)

/-- One or two digits, a colon and two digits. What follows them does not count, and neither hours
nor minutes have an upper bound. -/
def readMinutes? (cs : List Char) : Option Nat :=
  let hours := cs.takeWhile Char.isDigit
  if hours.length = 1 || hours.length = 2 then
    match cs.drop hours.length with
    | ':' :: a :: b :: _ =>
      if a.isDigit && b.isDigit then some (Stamp.ofDigits hours * 60 + Stamp.ofDigits [a, b])
      else none
    | _ => none
  else none

def ofString? (value : String) : Option TimeTarget :=
  let (comparison, cs) := readComparison value.toList
  (readMinutes? cs).map (⟨comparison, ·⟩)

def admits (t : TimeTarget) (minutes : Nat) : Bool := t.comparison.holds minutes t.minutes

end TimeTarget

/-! ## Terms -/

open Compare

/-- The values that ask for events without an answer. -/
def pendingValues : List String := ["needsaction", "needs-action", "needs_action", "pending"]

/-- The property of the event compares with a value that is folded already. -/
def Property.holds (p : Property) (value : String) (e : Event) : Bool :=
  match p with
  | .title => contains (e.title.getD "") value
  | .description => contains (e.description.getD "") value
  | .attendees => e.attendees.any (contains · value)
  | .domain => e.domains.any (· == value)
  | .email => e.attendees.any (lower · == value)
  | .response =>
    let wanted := if value ∈ pendingValues then "needsaction" else value
    lowerOr "" e.responseStatus == wanted
  | .recurring => agrees value e.isRecurring
  | .isAllDay => agrees value e.isAllDay?
  | .hasAttendees => agrees value (some !e.attendees.isEmpty)
  | .transparency =>
    let wanted :=
      if value = "free" then "transparent" else if value = "busy" then "opaque" else value
    lowerOr "opaque" e.transparency == wanted
  | .visibility => lowerOr "default" e.visibility == value
  | .dayOfWeek =>
    match e.start?, weekday? value with
    | some start, some day => start.date.weekday == day
    | _, _ => false
  | .timeOfDay =>
    match e.start?, TimeTarget.ofString? value with
    | some start, some target => target.admits start.minuteOfDay
    | _, _ => false
  | .color => ((e.color.map lower).getD "") == value
  | .recurrenceId => lowerOr "" e.recurrenceId == value

def Term.holds (t : Term) (e : Event) : Bool :=
  match Property.ofName? t.property with
  | some p => p.holds (fold t.value) e
  | none => false

/-! ## Queries -/

namespace Node

mutual

def holds (e : Event) : Node → Bool
  | .term t => t.holds e
  | .anyOf ms => anyHolds e ms

def anyHolds (e : Event) : List Node → Bool
  | [] => false
  | m :: ms => m.holds e || anyHolds e ms

end

theorem anyHolds_eq_any (e : Event) (ms : List Node) : anyHolds e ms = ms.any (·.holds e) := by
  induction ms with
  | nil => rfl
  | cons m ms ih => rw [anyHolds, List.any_cons, ih]

theorem holds_anyOf (e : Event) (ms : List Node) : (anyOf ms).holds e = ms.any (·.holds e) := by
  rw [holds, anyHolds_eq_any]

end Node

namespace Query

/-- The query matches the event: every item holds, and there is one. -/
def holds (q : Query) (e : Event) : Bool := !q.isEmpty && q.items.all (·.holds e)

theorem holds_iff (q : Query) (e : Event) :
    q.holds e = true ↔ q.items ≠ [] ∧ ∀ n ∈ q.items, n.holds e = true := by
  simp [holds, isEmpty]

/-- The terms whose property is not in the catalog. -/
def unknownTerms (q : Query) : List Term :=
  q.terms.filter fun t => (Property.ofName? t.property).isNone

end Query

end CalendarRules
