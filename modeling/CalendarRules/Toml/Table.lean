import CalendarRules.Toml.Basic

/-! # Putting the entries and sections of a document together

No name is given twice. A table is given by one header, or bit by bit by dotted keys that start in
one place. Headers alone may also lead through tables that come later.
-/

namespace CalendarRules.Toml

/-- What made a table. -/
inductive Making where
  /-- Its own header. -/
  | header
  /-- The header of a table below it. -/
  | implied
  /-- Dotted keys. -/
  | dotted
  deriving DecidableEq, Repr

/-- The elements of an array of tables stand in reverse order. -/
inductive Item where
  | value (v : Value)
  | table (made : Making) (members : List (String × Item))
  | elements (tables : List (List (String × Item)))
  deriving Repr

abbrev Members := List (String × Item)

namespace Members

def get? (ms : Members) (name : String) : Option Item := (ms.find? (·.1 == name)).map (·.2)

/-- Puts the item in the place of the one with this name, or at the end. -/
def set (name : String) (item : Item) : Members → Members
  | [] => [(name, item)]
  | m :: ms => if m.1 = name then (name, item) :: ms else m :: set name item ms

/-- Sets the value of a new name in the table at the end of a dotted path. -/
def insert? (name : String) (v : Value) : List String → Members → Option Members
  | [], ms => if (ms.get? name).isNone then some (ms.set name (.value v)) else none
  | p :: path, ms =>
    match ms.get? p with
    | none => do some (ms.set p (.table .dotted (← insert? name v path [])))
    | some (.table .dotted sub) => do some (ms.set p (.table .dotted (← insert? name v path sub)))
    | some (.table .implied sub) =>
      if path.isEmpty then none
      else do some (ms.set p (.table .implied (← insert? name v path sub)))
    | some (.elements (sub :: earlier)) =>
      if path.isEmpty then none
      else do some (ms.set p (.elements ((← insert? name v path sub) :: earlier)))
    | _ => none

def insertEntry? (ms : Members) (e : Entry) : Option Members :=
  insert? e.key.name e.value e.key.path ms

def insertEntries? (ms : Members) (es : List Entry) : Option Members := es.foldlM insertEntry? ms

/-- Changes the table at the end of the path of a header. -/
def changeAt? (change : Members → Option Members) : List String → Members → Option Members
  | [], ms => change ms
  | p :: path, ms =>
    match ms.get? p with
    | none => do some (ms.set p (.table .implied (← changeAt? change path [])))
    | some (.table made sub) => do some (ms.set p (.table made (← changeAt? change path sub)))
    | some (.elements (sub :: earlier)) => do
      some (ms.set p (.elements ((← changeAt? change path sub) :: earlier)))
    | _ => none

/-- Fills the table of a header. It must not have had a header before. -/
def fillTable? (name : String) (es : List Entry) (ms : Members) : Option Members :=
  match ms.get? name with
  | none => do some (ms.set name (.table .header (← insertEntries? [] es)))
  | some (.table .implied sub) => do some (ms.set name (.table .header (← insertEntries? sub es)))
  | _ => none

/-- Adds an element to an array of tables. -/
def addElement? (name : String) (es : List Entry) (ms : Members) : Option Members :=
  match ms.get? name with
  | none => do some (ms.set name (.elements [← insertEntries? [] es]))
  | some (.elements tables) => do
    some (ms.set name (.elements ((← insertEntries? [] es) :: tables)))
  | _ => none

def insertSection? (ms : Members) (s : Section) : Option Members :=
  let change := if s.header.isElement then addElement? else fillTable?
  changeAt? (change s.header.key.name s.entries) s.header.key.path ms

end Members

/-! ## Values -/

mutual

def Item.toValue : Item → Value
  | .value v => v
  | .table _ ms => .table (memberValues ms)
  | .elements tables => .list (elementValues [] tables)

def memberValues : List (String × Item) → List (String × Value)
  | [] => []
  | (name, item) :: ms => (name, item.toValue) :: memberValues ms

/-- The elements in their order, before those of `later`. -/
def elementValues (later : List Value) : List (List (String × Item)) → List Value
  | [] => later
  | ms :: earlier => elementValues (.table (memberValues ms) :: later) earlier

end

/-- The table that entries alone give. -/
def tableOf? (es : List Entry) : Option Value :=
  (Members.insertEntries? [] es).map fun ms => .table (memberValues ms)

namespace Document

def members? (d : Document) : Option Members := do
  d.sections.foldlM Members.insertSection? (← Members.insertEntries? [] d.entries)

/-- The table that the whole document gives. -/
def value? (d : Document) : Option Value := d.members?.map fun ms => .table (memberValues ms)

end Document

end CalendarRules.Toml
