import CalendarRules.Data.Record

/-! # TOML values, and the documents that hold them -/

namespace CalendarRules.Toml

/-- A number with a fraction or an exponent and a time are kept as they are written. -/
inductive Value where
  | text (s : String)
  | whole (n : Int)
  | real (literal : String)
  | bool (b : Bool)
  | time (literal : String)
  | list (items : List Value)
  | table (members : List (String × Value))
  deriving Repr

/-- A dotted name: the tables on the way, and the name below them. -/
structure Key where
  path : List String
  name : String
  deriving DecidableEq, Repr

def Key.ofName (name : String) : Key := ⟨[], name⟩

structure Entry where
  key : Key
  value : Value
  deriving Repr

/-- An entry of one plain name. -/
def Entry.of (name : String) (v : Value) : Entry := ⟨.ofName name, v⟩

/-- What a section fills: a table, or one more element of an array of tables. -/
structure Header where
  key : Key
  isElement : Bool
  deriving DecidableEq, Repr

structure Section where
  header : Header
  entries : List Entry
  deriving Repr

/-- The entries before the first header, and the sections. -/
structure Document where
  entries : List Entry
  sections : List Section
  deriving Repr

/-! ## Records -/

namespace Value

def text? : Value → Option String
  | text s => some s
  | _ => none

def whole? : Value → Option Int
  | whole n => some n
  | _ => none

def bool? : Value → Option Bool
  | bool b => some b
  | _ => none

def items? : Value → Option (List Value)
  | list items => some items
  | _ => none

/-- A time counts as a record too. It has no member that anyone asks for. -/
def members? : Value → Option (List (String × Value))
  | table members => some members
  | time _ => some []
  | _ => none

end Value

instance : DataFormat Value where
  text? := Value.text?
  whole? := Value.whole?
  bool? := Value.bool?
  items? := Value.items?
  members? := Value.members?
  isNull _ := false
  choice? _ := none
  strictLists := false

end CalendarRules.Toml
