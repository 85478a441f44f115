import CalendarRules.Query.Basic
import CalendarRules.Text.Blank

/-! # Rules and project fingerprints as they are stored -/

namespace CalendarRules

/-- What becomes of an event that a rule matches. -/
inductive Target where
  | project (id : String)
  | didNotAttend
  deriving DecidableEq, Repr

def Target.shown : Target → String
  | project id => "project " ++ id
  | didNotAttend => "did not attend"

structure Rule where
  id : String
  name : Option String := none
  /-- The text of the query as it was typed. -/
  query : String
  target : Target
  /-- Higher priorities are tried first. -/
  priority : Int := 0
  /-- Within a priority lower orders are tried first. -/
  displayOrder : Int := 0
  enabled : Bool := true
  deriving DecidableEq, Repr

/-- What tells the events of a project without a rule. -/
structure Fingerprint where
  projectId : String
  projectName : Option String := none
  domains : List String := []
  emails : List String := []
  keywords : List String := []
  deriving DecidableEq, Repr

namespace Fingerprint

/-- A term for each value that is not blank. -/
def termsFor (property : String) (values : List String) : List Node :=
  ((values.map Text.trim).filter (!·.isEmpty)).map fun value => .term (Term.of property value)

/-- Domains, addresses and keywords, in this order. -/
def members (f : Fingerprint) : List Node :=
  termsFor "domain" f.domains ++ termsFor "email" f.emails ++ termsFor "title" f.keywords

/-- The query that asks for any of the values, if there is one. -/
def toQuery? (f : Fingerprint) : Option Query :=
  if f.members.isEmpty then none else some ⟨[.anyOf f.members]⟩

end Fingerprint

structure RuleBook where
  rules : List Rule := []
  fingerprints : List Fingerprint := []
  deriving DecidableEq, Repr

def RuleBook.isEmpty (b : RuleBook) : Bool := b.rules.isEmpty && b.fingerprints.isEmpty

end CalendarRules
