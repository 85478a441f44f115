import CalendarRules.Query.Preview
import CalendarRules.Rule.Encode
import CalendarRules.View.Label

/-! # Showing a preview -/

namespace CalendarRules

open Text Json

def Event.brief (e : Event) : Value :=
  .object (
    optionalMember "id" (e.id.map .text) ++ optionalMember "title" (e.title.map .text) ++
      optionalMember "start_time" (e.startTime.map .text))

namespace Preview

def toValue (p : Preview) : Value :=
  .object
    [("query", .text p.query), ("total_matches", .ofNat p.total), ("shown", .ofNat p.shown.length),
      ("matches", .list (p.shown.map Event.brief))]

/-! ## As a table -/

def tableRow (id start title : String) : String :=
  padRight 8 id ++ " " ++ padRight 16 start ++ " " ++ title

def eventLine (e : Event) : String :=
  line (tableRow e.shownId e.shownStart (cut 60 e.shownTitle))

def summaryLine (p : Preview) : String :=
  if 0 < p.hidden then
    line ("... and " ++ toString p.hidden ++ " more (" ++ toString p.total ++ " matching events)")
  else line (toString p.total ++ " matching " ++ if p.total = 1 then "event" else "events")

def table (colours : Bool) (p : Preview) : String :=
  if p.total = 0 then line "No matching events."
  else
    headerLine colours (tableRow "ID" "Start" "Title") ++ String.join (p.shown.map eventLine) ++
      p.summaryLine

end Preview

end CalendarRules
