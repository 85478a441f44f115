import CalendarRules.Rule.Classifier
import CalendarRules.Text.Cell
import CalendarRules.Text.Style

/-! # How the parts of a table are written -/

namespace CalendarRules

open Text

/-- A timestamp in short form. One that cannot be read stays as it is. -/
def Stamp.shown (raw : String) : String :=
  match Stamp.parse? raw with
  | some m => m.shown
  | none => raw

namespace Event

def shownStart (e : Event) : String := (e.startTime.map Stamp.shown).getD ""

/-- The title, or a stand-in for an event without one. -/
def shownTitle (e : Event) : String :=
  match e.title with
  | some title => if title.isEmpty then "(no title)" else title
  | none => "(no title)"

def shownId (e : Event) : String := cutId (e.id.getD "")

end Event

def Target.label (colours : Bool) : Target → String
  | project id => Style.green.paint colours id
  | didNotAttend => Style.yellow.paint colours "did not attend"

namespace Origin

def shortName : Origin → String
  | rule => "rule"
  | fingerprint => "fp"

def label (colours : Bool) (o : Origin) : String := Style.dim.paint colours o.shortName

end Origin

/-- A line of its own. -/
def line (s : String) : String := s ++ "\n"

/-- The line above a table. -/
def headerLine (colours : Bool) (header : String) : String := line (Style.dim.paint colours header)

end CalendarRules
