import CalendarRules.Decimal.Shortest

/-! # JSON values -/

namespace CalendarRules.Json

/-- A whole number in 64 bits, with or without a sign, or any other number as a binary one. -/
inductive Number where
  | whole (n : Int)
  | real (negative : Bool) (magnitude : Decimal.Binary)
  deriving DecidableEq, Repr

def Number.text : Number → String
  | whole n => toString n
  | real negative x => String.ofList ((if negative then ['-'] else []) ++ x.text)

/-- The members of an object are in the order of the text. -/
inductive Value where
  | null
  | bool (b : Bool)
  | number (n : Number)
  | text (s : String)
  | list (items : List Value)
  | object (members : List (String × Value))
  deriving Repr

namespace Value

def ofNat (n : Nat) : Value := .number (.whole n)

def ofInt (n : Int) : Value := .number (.whole n)

def ofTexts (ss : List String) : Value := .list (ss.map .text)

def text? : Value → Option String
  | text s => some s
  | _ => none

def bool? : Value → Option Bool
  | bool b => some b
  | _ => none

def whole? : Value → Option Int
  | number (.whole n) => some n
  | _ => none

def items? : Value → Option (List Value)
  | list items => some items
  | _ => none

def members? : Value → Option (List (String × Value))
  | object members => some members
  | _ => none

end Value

/-- Of several members with one name the last one counts. -/
def findMember? (name : String) (members : List (String × Value)) : Option Value :=
  (members.reverse.find? (·.1 == name)).map (·.2)

def Value.member? (v : Value) (name : String) : Option Value :=
  v.members?.bind (findMember? name)

end CalendarRules.Json
