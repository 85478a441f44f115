import CalendarRules.Query.Basic
import CalendarRules.Text.Blank

/-! # The canonical text of a query -/

namespace CalendarRules

namespace Term

/-- A character that a value may only have inside quotes. -/
def needsQuotes (c : Char) : Bool :=
  Text.isBlank c || c == '(' || c == ')' || c == '"' || c == '\\'

def escape (c : Char) : List Char := if c = '"' || c = '\\' then ['\\', c] else [c]

/-- The value as it stands if that can be read back, and in quotes otherwise. -/
def renderValue (value : List Char) : List Char :=
  if value.isEmpty || value.any needsQuotes then '"' :: value.flatMap escape ++ ['"'] else value

def render (t : Term) : List Char := t.property.toList ++ ':' :: renderValue t.value.toList

def toText (t : Term) : String := String.ofList t.render

end Term

namespace Node

mutual

def render : Node → List Char
  | .term t => t.render
  | .anyOf ms => '(' :: renderMembers ms ++ [')']

def renderMembers : List Node → List Char
  | [] => []
  | [m] => m.render
  | m :: ms => m.render ++ " OR ".toList ++ renderMembers ms

end

def toText (n : Node) : String := String.ofList n.render

end Node

namespace Query

def renderItems : List Node → List Char
  | [] => []
  | [n] => n.render
  | n :: ns => n.render ++ ' ' :: renderItems ns

def render (q : Query) : List Char := renderItems q.items

def toText (q : Query) : String := String.ofList q.render

end Query

end CalendarRules
