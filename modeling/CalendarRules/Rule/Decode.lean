import CalendarRules.Data.Record
import CalendarRules.Rule.Basic

/-! # Decoding rules and fingerprints -/

namespace CalendarRules

open DataFormat Record

variable {α : Type} [DataFormat α]

/-- The kinds of target, in the order of their numbers. -/
inductive TargetKind where
  | project
  | didNotAttend
  deriving DecidableEq, Repr

namespace TargetKind

def all : List TargetKind := [project, didNotAttend]

def name : TargetKind → String
  | project => "project"
  | didNotAttend => "did_not_attend"

def decode? (v : α) : Option TargetKind :=
  match text? v with
  | some s => all.find? (·.name == s)
  | none => (choice? v).bind (all[·]?)

end TargetKind

/-- The target stands among the fields of its rule. -/
def Target.decode? (r : Record α) : Option Target := do
  match ← r.required? "target_type" TargetKind.decode? with
  | .project => do some (.project (← r.required? "project_id" text?))
  | .didNotAttend => some .didNotAttend

def Rule.decode? (v : α) : Option Rule := do
  let r ← Record.ofMembers? v
  some {
    id := ← r.required? "id" text?
    name := ← r.optional? "name" text?
    query := ← r.required? "query" text?
    target := ← Target.decode? r
    priority := ← r.getD? "priority" whole32? 0
    displayOrder := ← r.getD? "display_order" whole32? 0
    enabled := ← r.getD? "enabled" bool? true }

namespace Fingerprint

def fieldNames : List String := ["project_id", "project_name", "domains", "emails", "keywords"]

/-- A fingerprint may also be given as the list of its fields. -/
def decode? (v : α) : Option Fingerprint := do
  let r ← Record.ofMembers? v <|> Record.ofItems? fieldNames v
  some {
    projectId := ← r.required? "project_id" text?
    projectName := ← r.optional? "project_name" text?
    domains := ← r.getD? "domains" texts? []
    emails := ← r.getD? "emails" texts? []
    keywords := ← r.getD? "keywords" texts? [] }

end Fingerprint

def RuleBook.decode? (r : Record α) : Option RuleBook := do
  some {
    rules := ← r.getD? "rules" (decodeList? Rule.decode?) []
    fingerprints := ← r.getD? "fingerprints" (decodeList? Fingerprint.decode?) [] }

end CalendarRules
