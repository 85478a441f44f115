/-! # Calendar events -/

namespace CalendarRules

/-- What is known about an event. A field that holds nothing usable is none. -/
structure Event where
  id : Option String := none
  title : Option String := none
  description : Option String := none
  attendees : List String := []
  /-- Without a flag an event is single. None stands for a flag that is no Boolean. -/
  isRecurring : Option Bool := some false
  responseStatus : Option String := none
  transparency : Option String := none
  visibility : Option String := none
  color : Option String := none
  recurrenceId : Option String := none
  startTime : Option String := none
  endTime : Option String := none
  deriving DecidableEq, Repr

/-- The columns that an event is stored in. -/
inductive Column where
  | id
  | title
  | description
  | attendees
  | isRecurring
  | responseStatus
  | transparency
  | visibility
  | color
  | recurrenceId
  | startTime
  | endTime
  deriving DecidableEq, Repr

namespace Column

/-- Every column, in the order in which an event is stored. -/
def all : List Column :=
  [id, title, description, attendees, isRecurring, responseStatus, transparency, visibility, color,
    recurrenceId, startTime, endTime]

def name : Column → String
  | id => "id"
  | title => "title"
  | description => "description"
  | attendees => "attendees"
  | isRecurring => "is_recurring"
  | responseStatus => "my_response_status"
  | transparency => "transparency"
  | visibility => "visibility"
  | color => "event_color"
  | recurrenceId => "recurrence_id"
  | startTime => "start_time"
  | endTime => "end_time"

def ofName? (name : String) : Option Column := all.find? (·.name == name)

end Column

end CalendarRules
