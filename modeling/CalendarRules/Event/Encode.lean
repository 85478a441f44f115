import CalendarRules.Event.Basic
import CalendarRules.Json.Write

/-! # Storing events as JSON objects -/

namespace CalendarRules

open Json

namespace Event

/-- The value to store in a column, or none to leave the column out. -/
def cell? (e : Event) : Column → Option Value
  | .id => e.id.map .text
  | .title => e.title.map .text
  | .description => e.description.map .text
  | .attendees => some (.ofTexts e.attendees)
  | .isRecurring => e.isRecurring.map .bool
  | .responseStatus => e.responseStatus.map .text
  | .transparency => e.transparency.map .text
  | .visibility => e.visibility.map .text
  | .color => e.color.map .text
  | .recurrenceId => e.recurrenceId.map .text
  | .startTime => e.startTime.map .text
  | .endTime => e.endTime.map .text

/-- Attendees are always written, every other field only when something is known. -/
def toValue (e : Event) : Value :=
  .object (Column.all.filterMap fun c => (e.cell? c).map (c.name, ·))

end Event

end CalendarRules
