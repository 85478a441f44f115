import CalendarRules.Rule.Decode
import CalendarRules.Rule.Encode
import CalendarRules.Toml.Read
import CalendarRules.Toml.Write

/-! # The configuration: preferences and a rule book -/

namespace CalendarRules

structure Config where
  /-- Colours on or off, where that is said. -/
  colour : Option Bool := none
  /-- How many events a preview lists, where that is said. -/
  limit : Option Nat := none
  book : RuleBook := {}
  deriving DecidableEq, Repr

namespace Config

/-- The version of the layout. A file of any version is taken to have it. -/
def version : Nat := 1

def defaultLimit : Nat := 50

def previewLimit (c : Config) : Nat := c.limit.getD defaultLimit

/-! ## Reading -/

open DataFormat Record

/-- A record of one field that may be missing. As a list it has to give the field. -/
def decodeOnly? {α β : Type} [DataFormat α] (name : String) (decode : α → Option β) (v : α) :
    Option (Option β) :=
  match Record.ofMembers? v with
  | some r => r.optional? name decode
  | none => do
    let r ← Record.ofItems? [name] v
    some (some (← r.required? name decode))

def natural? {α : Type} [DataFormat α] (v : α) : Option Nat :=
  (whole? v).bind fun n => if 0 ≤ n then some n.toNat else none

def maxVersion : Int := 0xffffffff

def decode? {α : Type} [DataFormat α] (v : α) : Option Config := do
  let r ← Record.ofMembers? v
  let _ ← r.getD? "version" (bounded? 0 maxVersion) version
  some {
    colour := ← r.getD? "output" (decodeOnly? "color" bool?) none
    limit := ← r.getD? "preview" (decodeOnly? "limit" natural?) none
    book := ← RuleBook.decode? r }

def ofString? (s : String) : Option Config := (Toml.Value.ofString? s).bind decode?

end Config

/-- The book in a file of rules. Anything else in the file is passed over. -/
def RuleBook.ofString? (s : String) : Option RuleBook := do
  RuleBook.decode? (← Record.ofMembers? (← Toml.Value.ofString? s))

/-! ## As a TOML document -/

open Toml

/-- An entry that is left out when there is nothing to say. -/
def optionalEntry (name : String) (v : Option Toml.Value) : List Entry :=
  (v.map (.of name)).toList

/-- An empty list is left out. -/
def textsEntry (name : String) (texts : List String) : List Entry :=
  if texts.isEmpty then [] else [.of name (.list (texts.map .text))]

def Target.entries : Target → List Entry
  | project id => [.of "target_type" (.text "project"), .of "project_id" (.text id)]
  | didNotAttend => [.of "target_type" (.text "did_not_attend")]

def Rule.toSection (r : Rule) : Section where
  header := ⟨.ofName "rules", true⟩
  entries :=
    .of "id" (.text r.id) :: optionalEntry "name" (r.name.map .text) ++
      .of "query" (.text r.query) :: r.target.entries ++
      [.of "priority" (.whole r.priority), .of "display_order" (.whole r.displayOrder),
        .of "enabled" (.bool r.enabled)]

def Fingerprint.toSection (f : Fingerprint) : Section where
  header := ⟨.ofName "fingerprints", true⟩
  entries :=
    .of "project_id" (.text f.projectId) ::
      optionalEntry "project_name" (f.projectName.map .text) ++ textsEntry "domains" f.domains ++
      textsEntry "emails" f.emails ++ textsEntry "keywords" f.keywords

namespace Config

def toDocument (c : Config) : Document where
  entries := [.of "version" (.whole version)]
  sections :=
    ⟨⟨.ofName "output", false⟩, optionalEntry "color" (c.colour.map .bool)⟩ ::
      ⟨⟨.ofName "preview", false⟩, optionalEntry "limit" (c.limit.map fun n => .whole n)⟩ ::
      c.book.rules.map Rule.toSection ++ c.book.fingerprints.map Fingerprint.toSection

/-- The text to store. A limit that is too large has none. -/
def toText? (c : Config) : Option String := c.toDocument.write?

/-! ## As JSON -/

def toJson (c : Config) : Json.Value :=
  .object (
    [("version", .ofNat version),
      ("output", .object (optionalMember "color" (c.colour.map .bool))),
      ("preview", .object (optionalMember "limit" (c.limit.map .ofNat)))] ++
      listMember "rules" (c.book.rules.map Rule.toValue) ++
      listMember "fingerprints" (c.book.fingerprints.map Fingerprint.toValue))

end Config

end CalendarRules
