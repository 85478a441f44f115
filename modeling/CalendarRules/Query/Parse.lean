import CalendarRules.Query.Token

/-! # Reading a query

A query is a row of terms and groups, and a group a row of terms, groups and the keyword between
parentheses. The keyword only joins the members of a group: outside of one it reads as the name of
a property without its colon.
-/

namespace CalendarRules.Query

open Text

/-- A group that is still open: its place, and the nodes before it, the last first. -/
structure OpenGroup where
  place : Rest
  before : List Node

/-- The items of the text, with groups open around it and `done`, the last first, read so far. -/
def parseFrom (opens : List OpenGroup) (done : List Node) (cs : Rest) :
    Except (Fault Rest) (List Node) :=
  match h : readWord cs with
  | .error fault => .error fault
  | .ok none =>
    match opens with
    | [] => .ok done.reverse
    | group :: _ => .error (.unclosedParenthesis group.place)
  | .ok (some w) =>
    have := readWord_shorter h
    match w.token, opens with
    | .term t, _ => parseFrom opens (.term t :: done) w.rest
    | .openParen, _ => parseFrom (⟨w.place, done⟩ :: opens) [] w.rest
    | .closeParen, [] => .error (.unexpectedCloseParen w.place)
    | .closeParen, group :: opens =>
      parseFrom opens (.anyOf done.reverse :: group.before) w.rest
    | .or, [] => .error (.expectedColon "or" w.rest)
    | .or, _ :: _ => parseFrom opens done w.rest
termination_by cs.length

/-- The length in bytes. -/
def byteLength : List Char → Nat
  | [] => 0
  | c :: cs => c.utf8Size + byteLength cs

/-- The query in a text, after blanks are trimmed off. -/
def parse (s : String) : Except Error Query :=
  let cs := trimChars s.toList
  match parseFrom [] [] cs with
  | .ok items => .ok ⟨items⟩
  | .error fault => .error (fault.map fun rest => byteLength cs - byteLength rest)

end CalendarRules.Query
