import CalendarRules.Json.Write
import CalendarRules.Rule.Basic

/-! # Rules and fingerprints as JSON objects -/

namespace CalendarRules

open Json

/-- A member that is left out when there is nothing to say. -/
def optionalMember (name : String) (v : Option Value) : List (String × Value) :=
  (v.map (name, ·)).toList

theorem forall_mem_optionalMember {α : Type} {P : String × Value → Prop} {name : String}
    {f : α → Value} {x : Option α} (h : ∀ a, P (name, f a)) :
    ∀ m ∈ optionalMember name (x.map f), P m := by
  cases x <;> simp [optionalMember, h]

def Target.members : Target → List (String × Value)
  | project id => [("target_type", .text "project"), ("project_id", .text id)]
  | didNotAttend => [("target_type", .text "did_not_attend")]

def Target.toValue (t : Target) : Value := .object t.members

def Rule.toValue (r : Rule) : Value :=
  .object (
    ("id", .text r.id) :: optionalMember "name" (r.name.map .text) ++
      ("query", .text r.query) :: r.target.members ++
      [("priority", .ofInt r.priority), ("display_order", .ofInt r.displayOrder),
        ("enabled", .bool r.enabled)])

/-- An empty list is left out. -/
def listMember (name : String) (items : List Value) : List (String × Value) :=
  if items.isEmpty then [] else [(name, .list items)]

theorem forall_mem_listMember {P : String × Value → Prop} {name : String} {vs : List Value}
    (h : P (name, .list vs)) : ∀ m ∈ listMember name vs, P m := by
  unfold listMember
  split <;> simp [h]

def Fingerprint.toValue (f : Fingerprint) : Value :=
  .object (
    ("project_id", .text f.projectId) :: optionalMember "project_name" (f.projectName.map .text) ++
      listMember "domains" (f.domains.map .text) ++ listMember "emails" (f.emails.map .text) ++
      listMember "keywords" (f.keywords.map .text))

end CalendarRules
