import CalendarRules.Event.Decode
import CalendarRules.Text.Blank

/-! # Event feeds: a JSON array of events, or one event on each line -/

namespace CalendarRules.Feed

open Text Json

inductive Fault where
  | array
  | line (number : Nat)
  deriving DecidableEq, Repr

def Fault.message : Fault → String
  | array => "Invalid events array"
  | line n => "Invalid event on line " ++ toString n

def eventItems? (room : Nat) : List Source → Option (List Event)
  | [] => some []
  | s :: ss => do
    let e ← Event.ofSource? room s
    some (e :: (← eventItems? room ss))

def ofArray? (cs : List Char) : Option (List Event) := do
  match ← Source.ofChars? cs with
  | .list items => eventItems? (maxNesting - 1) items
  | _ => none

def isBlankLine (line : List Char) : Bool := line.all isBlank

/-- The events on the lines from the line `number` on. Blank lines hold none. -/
def ofLines (number : Nat) : List (List Char) → Except Fault (List Event)
  | [] => .ok []
  | line :: ls =>
    if isBlankLine line then ofLines (number + 1) ls
    else
      match Event.ofString? (String.ofList line) with
      | none => .error (.line number)
      | some e => do
        let es ← ofLines (number + 1) ls
        .ok (e :: es)

/-- A text whose first character is a bracket holds an array. -/
def parse (s : String) : Except Fault (List Event) :=
  let cs := s.toList
  match trimStartChars cs with
  | [] => .ok []
  | '[' :: rest =>
    match ofArray? ('[' :: rest) with
    | some es => .ok es
    | none => .error .array
  | _ => ofLines 1 (lines cs)

end CalendarRules.Feed
