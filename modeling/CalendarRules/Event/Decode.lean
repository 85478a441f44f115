import CalendarRules.Event.Cell

/-! # Decoding events

The members of a row are taken one after the other, and each sets the field of its column. A list
gives the columns in their order. In a text, what stands under a name that is no column is not
looked into, and no column may come twice.
-/

namespace CalendarRules

open Json

namespace Event

/-- The event with the field of a column set to what a value means there. -/
def set (e : Event) (c : Column) (v : Value) : Event :=
  match c with
  | .id => { e with id := Cell.label v }
  | .title => { e with title := Cell.text v }
  | .description => { e with description := Cell.text v }
  | .attendees => { e with attendees := Cell.addresses v }
  | .isRecurring => { e with isRecurring := Cell.flag (some v) }
  | .responseStatus => { e with responseStatus := Cell.text v }
  | .transparency => { e with transparency := Cell.text v }
  | .visibility => { e with visibility := Cell.text v }
  | .color => { e with color := Cell.label v }
  | .recurrenceId => { e with recurrenceId := Cell.text v }
  | .startTime => { e with startTime := Cell.text v }
  | .endTime => { e with endTime := Cell.text v }

/-- The event after each of the columns is set in turn. -/
def ofColumns (columns : List (Column × Value)) : Event :=
  columns.foldl (fun e (c, v) => e.set c v) {}

/-- The members that are columns. -/
def columnsOf (members : List (String × Value)) : List (Column × Value) :=
  members.filterMap fun (name, v) => (Column.ofName? name).map (·, v)

/-- An object, or a list of no more values than there are columns. -/
def ofValue? : Value → Option Event
  | .object members => some (ofColumns (columnsOf members))
  | .list items =>
    if items.length ≤ Column.all.length then some (ofColumns (Column.all.zip items)) else none
  | _ => none

/-! ## From text -/

/-- The columns among the members of an object in a text. Only they are given a value. -/
def sourceColumns? (room : Nat) : List (List Piece × Source) → Option (List (Column × Value))
  | [] => some []
  | (name, source) :: ms => do
    match Column.ofName? (← textOf? name) with
    | none => sourceColumns? room ms
    | some c =>
      let v ← source.value? room
      some ((c, v) :: (← sourceColumns? room ms))

/-- The event in a part of a text in which lists and objects may nest `room` deep. -/
def ofSource? (room : Nat) : Source → Option Event
  | .object members => do
    if room = 0 then none
    else
      let columns ← sourceColumns? (room - 1) members
      if (columns.map (·.1)).Nodup then some (ofColumns columns) else none
  | .list items => do
    if room = 0 || Column.all.length < items.length then none
    else some (ofColumns (Column.all.zip (← itemValues? (room - 1) items)))
  | _ => none

/-- The event in a whole text. -/
def ofString? (s : String) : Option Event := do (← Source.ofString? s) |> ofSource? maxNesting

end Event

end CalendarRules
