import CalendarRules.Text.Distance
import CalendarRules.Text.Lower

/-! # The catalog of properties that a query may name -/

namespace CalendarRules

inductive Property where
  | title
  | description
  | attendees
  | domain
  | email
  | response
  | recurring
  | isAllDay
  | hasAttendees
  | transparency
  | visibility
  | dayOfWeek
  | timeOfDay
  | color
  | recurrenceId
  deriving DecidableEq, Repr

/-- How a property compares the value of a term with an event. -/
inductive PropertyKind where
  | text
  | attendees
  | choice
  | boolean
  | time
  deriving DecidableEq, Repr

def PropertyKind.name : PropertyKind → String
  | text => "text"
  | attendees => "attendees"
  | choice => "enum"
  | boolean => "boolean"
  | time => "time"

namespace Property

/-- Every property, in the order of the catalog. -/
def all : List Property :=
  [title, description, attendees, domain, email, response, recurring, isAllDay, hasAttendees,
    transparency, visibility, dayOfWeek, timeOfDay, color, recurrenceId]

def name : Property → String
  | title => "title"
  | description => "description"
  | attendees => "attendees"
  | domain => "domain"
  | email => "email"
  | response => "response"
  | recurring => "recurring"
  | isAllDay => "is-all-day"
  | hasAttendees => "has-attendees"
  | transparency => "transparency"
  | visibility => "visibility"
  | dayOfWeek => "day-of-week"
  | timeOfDay => "time-of-day"
  | color => "color"
  | recurrenceId => "recurrence-id"

def kind : Property → PropertyKind
  | title | description => .text
  | attendees | domain | email => .attendees
  | response | transparency | visibility | color | recurrenceId => .choice
  | recurring | isAllDay | hasAttendees => .boolean
  | dayOfWeek | timeOfDay => .time

/-- The property of exactly this name. -/
def ofName? (name : String) : Option Property := all.find? (·.name == name)

/-! ## Suggestions -/

/-- The property nearest to a word, the first in the catalog of those equally near. -/
def nearest (word : String) : Property :=
  all.foldl (fun best p =>
    if Text.distance word p.name < Text.distance word best.name then p else best) title

/-- No suggestion is further off than this many edits. -/
def maxDistance : Nat := 3

/-- The property that was probably meant by a name that is none. -/
def suggest? (name : String) : Option Property :=
  let word := Text.lower name
  let best := nearest word
  let d := Text.distance word best.name
  if 0 < d && d ≤ maxDistance then some best else none

end Property

end CalendarRules
