import CalendarRules.Event.Cell

/-! # Raw rows: an event looked up column by column -/

namespace CalendarRules

/-- The members of a JSON object, with columns under their names and anything else beside them. -/
structure Row where
  members : List (String × Json.Value)
  deriving Repr

namespace Row

def get? (row : Row) (c : Column) : Option Json.Value := Json.findMember? c.name row.members

def text (row : Row) (c : Column) : Option String := (row.get? c).bind Cell.text

def label (row : Row) (c : Column) : Option String := (row.get? c).bind Cell.label

/-- The event that the row describes. -/
def read (row : Row) : Event where
  id := row.label .id
  title := row.text .title
  description := row.text .description
  attendees := ((row.get? .attendees).map Cell.addresses).getD []
  isRecurring := Cell.flag (row.get? .isRecurring)
  responseStatus := row.text .responseStatus
  transparency := row.text .transparency
  visibility := row.text .visibility
  color := row.label .color
  recurrenceId := row.text .recurrenceId
  startTime := row.text .startTime
  endTime := row.text .endTime

/-- Only an object is a row. -/
def ofValue? (v : Json.Value) : Option Row := v.members?.map Row.mk

def ofString? (s : String) : Option Row := (Json.Value.ofString? s).bind ofValue?

end Row

end CalendarRules
