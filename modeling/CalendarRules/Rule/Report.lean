import CalendarRules.Json.Write
import CalendarRules.Rule.Classifier
import CalendarRules.Rule.Encode

/-! # What a classifier makes of a list of events -/

namespace CalendarRules

/-- The outcome for one event, by its place in the list. -/
structure Outcome where
  index : Nat
  eventId : Option String
  result : Option Match
  deriving DecidableEq, Repr

structure Tally where
  classified : Nat := 0
  didNotAttend : Nat := 0
  unmatched : Nat := 0
  deriving DecidableEq, Repr

/-- The tally with one more outcome. -/
def Tally.add (t : Tally) (o : Outcome) : Tally :=
  match o.result.map Match.target with
  | some (.project _) => { t with classified := t.classified + 1 }
  | some .didNotAttend => { t with didNotAttend := t.didNotAttend + 1 }
  | none => { t with unmatched := t.unmatched + 1 }

structure Report where
  outcomes : List Outcome
  tally : Tally
  deriving DecidableEq, Repr

namespace Classifier

def outcome (c : Classifier) (index : Nat) (e : Event) : Outcome := ⟨index, e.id, c.classify e⟩

def apply (c : Classifier) (events : List Event) : Report :=
  let outcomes := events.mapIdx c.outcome
  ⟨outcomes, outcomes.foldl Tally.add {}⟩

end Classifier

/-! ## As JSON -/

open Json

def Match.toValue (m : Match) : Value :=
  .object (
    ("source", .text m.origin.name) :: ("rule_id", .text m.ruleId) ::
      optionalMember "rule_name" (m.ruleName.map .text) ++ [("target", m.target.toValue)])

def Outcome.toValue (o : Outcome) : Value :=
  .object (
    ("index", .ofNat o.index) :: optionalMember "event_id" (o.eventId.map .text) ++
      optionalMember "matched" (o.result.map Match.toValue))

def Tally.members (t : Tally) : List (String × Value) :=
  [("classified", .ofNat t.classified), ("did_not_attend", .ofNat t.didNotAttend),
    ("unmatched", .ofNat t.unmatched)]

def Report.toValue (r : Report) : Value :=
  .object (("outcomes", .list (r.outcomes.map Outcome.toValue)) :: r.tally.members)

end CalendarRules
