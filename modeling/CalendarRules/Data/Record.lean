import CalendarRules.Json.Basic

/-! # Reading records from structured data

Rules are stored in more than one format. A format says which values are texts, whole numbers and
so on, and the readers of records work with any format.
-/

namespace CalendarRules

class DataFormat (α : Type) where
  text? : α → Option String
  whole? : α → Option Int
  bool? : α → Option Bool
  items? : α → Option (List α)
  members? : α → Option (List (String × α))
  isNull : α → Bool
  /-- The number of a choice, where a format lets numbers stand for the names of choices. -/
  choice? : α → Option Nat
  /-- A list that stands for a record may not go on after its last field. -/
  strictLists : Bool

instance : DataFormat Json.Value where
  text? := Json.Value.text?
  whole? := Json.Value.whole?
  bool? := Json.Value.bool?
  items? := Json.Value.items?
  members? := Json.Value.members?
  isNull
    | .null => true
    | _ => false
  choice? v := v.whole?.bind fun n => if 0 ≤ n then some n.toNat else none
  strictLists := true

/-- The fields of a record, by name. -/
structure Record (α : Type) where
  members : List (String × α)

namespace Record

open DataFormat

variable {α : Type} [DataFormat α]

def ofMembers? (v : α) : Option (Record α) := (members? v).map Record.mk

/-- A record given by the values of its first fields in order. -/
def ofItems? (names : List String) (v : α) : Option (Record α) := do
  let items ← items? v
  if strictLists α && names.length < items.length then none else some ⟨names.zip items⟩

/-- Of several fields with one name the last one counts. -/
def get? (r : Record α) (name : String) : Option α :=
  (r.members.reverse.find? (·.1 == name)).map (·.2)

/-- The value of a field, or a default for a missing one. A value of the wrong type is no
value. -/
def getD? {β : Type} (r : Record α) (name : String) (decode : α → Option β) (default : β) :
    Option β :=
  match r.get? name with
  | none => some default
  | some v => decode v

def required? {β : Type} (r : Record α) (name : String) (decode : α → Option β) : Option β :=
  (r.get? name).bind decode

/-- A value that may be missing or null. -/
def optional? {β : Type} (r : Record α) (name : String) (decode : α → Option β) :
    Option (Option β) :=
  r.getD? name (fun v => if isNull v then some none else (decode v).map some) none

/-- All of the items, if each of them has a value. -/
def decodeList? {β : Type} (decode : α → Option β) (v : α) : Option (List β) :=
  (items? v).bind (List.mapM decode)

def texts? (v : α) : Option (List String) := decodeList? text? v

/-- A whole number between two bounds. -/
def bounded? (low high : Int) (v : α) : Option Int :=
  (whole? v).bind fun n => if low ≤ n && n ≤ high then some n else none

/-- A whole number in 32 bits with a sign. -/
def whole32? (v : α) : Option Int := bounded? (-0x80000000) 0x7fffffff v

end Record

end CalendarRules
