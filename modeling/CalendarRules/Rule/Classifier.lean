import CalendarRules.Query.Matches
import CalendarRules.Query.Parse
import CalendarRules.Rule.Basic

/-! # Classifying events

A book is compiled once. The first rule that matches an event wins: enabled rules by priority and
display order, and fingerprints after all of them.
-/

namespace CalendarRules

/-- Where a match comes from. -/
inductive Origin where
  | rule
  | fingerprint
  deriving DecidableEq, Repr

def Origin.name : Origin → String
  | rule => "rule"
  | fingerprint => "fingerprint"

structure Match where
  origin : Origin
  ruleId : String
  ruleName : Option String
  target : Target
  deriving DecidableEq, Repr

/-- Why a rule cannot be used. -/
inductive SkipReason where
  | invalidQuery (error : Query.Error)
  | emptyQuery
  deriving DecidableEq, Repr

def SkipReason.message : SkipReason → String
  | invalidQuery e => "invalid query: " ++ e.message
  | emptyQuery => "empty query"

structure SkippedRule where
  ruleId : String
  reason : SkipReason
  deriving DecidableEq, Repr

/-- A query with the match that it gives. -/
structure CompiledRule where
  query : Query
  result : Match
  deriving DecidableEq, Repr

/-! ## Compiling -/

namespace Rule

def compile (r : Rule) : Except SkipReason CompiledRule :=
  match Query.parse r.query with
  | .error e => .error (.invalidQuery e)
  | .ok q =>
    if q.isEmpty then .error .emptyQuery
    else .ok ⟨q, ⟨.rule, r.id, r.name, r.target⟩⟩

def compiled? (r : Rule) : Option CompiledRule :=
  match r.compile with
  | .ok c => some c
  | .error _ => none

def skipped? (r : Rule) : Option SkippedRule :=
  match r.compile with
  | .ok _ => none
  | .error reason => some ⟨r.id, reason⟩

/-- `r` is tried no later than `s`. -/
def precedes (r s : Rule) : Bool :=
  s.priority < r.priority || (r.priority == s.priority && r.displayOrder ≤ s.displayOrder)

end Rule

/-- A fingerprint without a query is passed over. -/
def Fingerprint.compiled? (f : Fingerprint) : Option CompiledRule :=
  f.toQuery?.map fun q =>
    ⟨q, ⟨.fingerprint, "fingerprint:" ++ f.projectId, f.projectName, .project f.projectId⟩⟩

/-- The enabled rules in the order in which they are tried. Rules with equal keys stay as they
are. -/
def RuleBook.ordered (b : RuleBook) : List Rule :=
  (b.rules.filter (·.enabled)).mergeSort Rule.precedes

structure Classifier where
  rules : List CompiledRule
  skipped : List SkippedRule
  deriving DecidableEq, Repr

namespace Classifier

def ofBook (b : RuleBook) : Classifier where
  rules := b.ordered.filterMap Rule.compiled? ++ b.fingerprints.filterMap Fingerprint.compiled?
  skipped := b.ordered.filterMap Rule.skipped?

def size (c : Classifier) : Nat := c.rules.length

def isEmpty (c : Classifier) : Bool := c.rules.isEmpty

/-- The match of the first rule whose query holds. -/
def classify (c : Classifier) (e : Event) : Option Match :=
  (c.rules.find? (·.query.holds e)).map (·.result)

end Classifier

end CalendarRules
