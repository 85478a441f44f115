import CalendarRules.Rule.Report
import CalendarRules.View.Label

/-! # Showing a report

A report is shown together with the events that it is about and the rules that were left out.
-/

namespace CalendarRules

open Text Json

structure ReportView where
  report : Report
  events : List Event
  skipped : List SkippedRule
  /-- Leave out the events that nothing matches. -/
  matchedOnly : Bool
  deriving DecidableEq, Repr

namespace ReportView

def visible (v : ReportView) : List Outcome :=
  v.report.outcomes.filter fun o => !v.matchedOnly || o.result.isSome

def event? (v : ReportView) (o : Outcome) : Option Event := v.events[o.index]?

/-! ## As JSON -/

def outcomeValue (v : ReportView) (o : Outcome) : Value :=
  .object (
    ("index", .ofNat o.index) :: optionalMember "id" (o.eventId.map .text) ++
      optionalMember "title" (((v.event? o).bind (·.title)).map .text) ++
      optionalMember "matched" (o.result.map Match.toValue))

def skippedValue (s : SkippedRule) : Value :=
  .object [("rule_id", .text s.ruleId), ("reason", .text s.reason.message)]

def toValue (v : ReportView) : Value :=
  .object (
    v.report.tally.members ++ ("events", .list (v.visible.map v.outcomeValue)) ::
      listMember "skipped_rules" (v.skipped.map skippedValue))

/-! ## As a table -/

def skippedLine (colours : Bool) (s : SkippedRule) : String :=
  line (Style.yellow.paint colours ("skipped rule " ++ s.ruleId ++ ": " ++ s.reason.message))

def skippedLines (colours : Bool) (v : ReportView) : String :=
  if v.skipped.isEmpty then ""
  else
    String.join (v.skipped.map (skippedLine colours)) ++ line ""

def tableRow (id start title via target : String) : String :=
  padRight 8 id ++ " " ++ padRight 16 start ++ " " ++ padRight 40 title ++ " " ++ via ++ " " ++
    target

def viaWidth : Nat := 5

/-- The origin in its column. Codes for colours take no room there. -/
def viaCell (colours : Bool) : Option Match → String
  | none => padRight viaWidth ""
  | some m =>
    m.origin.label colours ++
      String.ofList (List.replicate (viaWidth - m.origin.shortName.length) ' ')

def targetCell (colours : Bool) : Option Match → String
  | none => "-"
  | some m => m.target.label colours

def outcomeLine (colours : Bool) (v : ReportView) (o : Outcome) : String :=
  let event := v.event? o
  line (trimEnd (tableRow (cutId (o.eventId.getD "")) ((event.map (·.shownStart)).getD "")
    (cut 40 ((event.map (·.shownTitle)).getD "")) (viaCell colours o.result)
    (targetCell colours o.result)))

def tallyLine (t : Tally) : String :=
  line (toString t.classified ++ " classified, " ++ toString t.didNotAttend ++
    " did not attend, " ++ toString t.unmatched ++ " unmatched")

def outcomeLines (colours : Bool) (v : ReportView) : String :=
  if v.visible.isEmpty then line "No events to show."
  else
    headerLine colours (tableRow "ID" "Start" "Title" (padRight viaWidth "Via") "Target") ++
      String.join (v.visible.map (v.outcomeLine colours))

def table (colours : Bool) (v : ReportView) : String :=
  v.skippedLines colours ++ v.outcomeLines colours ++ line "" ++ tallyLine v.report.tally

end ReportView

end CalendarRules
