import CalendarRules.Event.Basic
import CalendarRules.Json.Read

/-! # What a stored value means in a column

A value of the wrong type means nothing, but it never spoils the event.
-/

namespace CalendarRules.Cell

open Json

/-- Only text counts. -/
def text (v : Value) : Option String := v.text?

/-- Text, or a number by its text. -/
def label : Value → Option String
  | .text s => some s
  | .number n => some n.text
  | _ => none

/-- A missing or empty flag is off, and a flag that is no Boolean is unknown. -/
def flag : Option Value → Option Bool
  | none | some .null => some false
  | some (.bool b) => some b
  | some _ => none

def texts (items : List Value) : List String := items.filterMap Value.text?

/-- A list keeps its texts. A text that holds a list as JSON stands for that list. -/
def addresses : Value → List String
  | .list items => texts items
  | .text s =>
    match Value.ofString? s with
    | some (.list items) => texts items
    | _ => []
  | _ => []

end CalendarRules.Cell
