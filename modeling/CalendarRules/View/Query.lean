import CalendarRules.Query.Matches
import CalendarRules.Query.Render
import CalendarRules.Rule.Encode
import CalendarRules.Text.Quoted
import CalendarRules.View.Label

/-! # Showing a query: its terms, its tree and what is wrong with it -/

namespace CalendarRules

open Text Json

/-! ## Warnings -/

/-- A term that can never match because its property is in no catalog. -/
structure Warning where
  property : String
  suggestion : Option Property
  deriving DecidableEq, Repr

def Warning.message (w : Warning) : String :=
  let text := "unknown property '" ++ w.property ++ "' never matches"
  match w.suggestion with
  | some p => text ++ " (did you mean '" ++ p.name ++ "'?)"
  | none => text

def Query.warnings (q : Query) : List Warning :=
  q.unknownTerms.map fun t => ⟨t.property, Property.suggest? t.property⟩

/-! ## As JSON -/

def Term.summary (t : Term) : Value :=
  let property := Property.ofName? t.property
  .object (
    [("property", .text t.property), ("value", .text t.value), ("known", .bool property.isSome)] ++
      optionalMember "kind" (property.map fun p => .text p.kind.name))

def Warning.summary (w : Warning) : Value :=
  .object (
    [("property", .text w.property), ("message", .text w.message)] ++
      optionalMember "suggestion" (w.suggestion.map fun p => .text p.name))

def Query.summary (q : Query) : Value :=
  .object
    [("valid", .bool true), ("query", .text q.toText), ("terms", .list (q.terms.map Term.summary)),
      ("warnings", .list (q.warnings.map Warning.summary))]

/-! ## As a tree -/

def indent (depth : Nat) : String := String.ofList (List.replicate (2 * depth) ' ')

def Term.treeLine (colours : Bool) (depth : Nat) (t : Term) : String :=
  let (style, kind) :=
    match Property.ofName? t.property with
    | some p => (Style.cyan, p.kind.name)
    | none => (Style.red, "unknown")
  line (indent depth ++ style.paint colours t.property ++ " = " ++ quoted t.value ++
    " (" ++ kind ++ ")")

namespace Node

mutual

/-- A node and below it, further in, its members. -/
def tree (colours : Bool) (depth : Nat) : Node → String
  | .term t => t.treeLine colours depth
  | .anyOf [] => line (indent depth ++ "any of: (empty, never matches)")
  | .anyOf (m :: ms) =>
    line (indent depth ++ "any of:") ++ treeMembers colours (depth + 1) (m :: ms)

def treeMembers (colours : Bool) (depth : Nat) : List Node → String
  | [] => ""
  | m :: ms => m.tree colours depth ++ treeMembers colours depth ms

end

end Node

namespace Query

def warningLines (colours : Bool) (q : Query) : String :=
  if q.warnings.isEmpty then ""
  else
    line "" ++ String.join (q.warnings.map fun w =>
      line (Style.yellow.paint colours "warning:" ++ " " ++ w.message))

def tree (colours : Bool) (q : Query) : String :=
  if q.isEmpty then line "Empty query (matches no events)."
  else
    line (Style.green.paint colours "✓" ++ " " ++ Style.bold.paint colours q.toText) ++
      line "" ++ line "All of:" ++ Node.treeMembers colours 1 q.items ++ q.warningLines colours

end Query

end CalendarRules
