import CalendarRules.Config.Basic
import CalendarRules.Proofs.Toml.Document
import CalendarRules.Proofs.Toml.Table

/-!
# A configuration that is stored is loaded again

Fields that say nothing are left out of the document. What is read for a field that is missing is
what was left out, so nothing is lost, whatever stands in the texts of the rule book.
-/

namespace CalendarRules

open Toml

theorem mapM_map_eq_some {α β : Type} {encode : α → β} {decode : β → Option α} {as : List α}
    (h : ∀ a ∈ as, decode (encode a) = some a) : (as.map encode).mapM decode = some as := by
  induction as with
  | nil => rfl
  | cons a as ih =>
    obtain ⟨ha, has⟩ := List.forall_mem_cons.mp h
    simp [ha, ih has]

/-! ## Records of members -/

namespace Record

section Members

variable {α : Type} {name : String} {v : α} {ms ns : List (String × α)}

@[simp] theorem get?_nil : (⟨[]⟩ : Record α).get? name = none := rfl

@[simp] theorem get?_append :
    (⟨ms ++ ns⟩ : Record α).get? name =
      ((⟨ns⟩ : Record α).get? name).or ((⟨ms⟩ : Record α).get? name) := by
  simp only [get?, List.reverse_append, List.find?_append]
  cases ns.reverse.find? (·.1 == name) <;> rfl

@[simp] theorem get?_cons (other : String) :
    (⟨(other, v) :: ms⟩ : Record α).get? name =
      ((⟨ms⟩ : Record α).get? name).or (if other = name then some v else none) := by
  rw [← List.singleton_append, get?_append]
  by_cases h : other = name <;> simp [get?, h]

@[simp] theorem get?_optional {β : Type} (other : String) (b : Option β) (f : β → α) :
    (⟨(b.map fun b => (other, f b)).toList⟩ : Record α).get? name =
      if other = name then b.map f else none := by
  cases b <;> simp

end Members

variable {r : Record Value} {name : String}

theorem required?_text {s : String} (h : r.get? name = some (.text s)) :
    r.required? name DataFormat.text? = some s := by
  rw [required?, h]
  rfl

theorem optional?_text {s : Option String} (h : r.get? name = s.map .text) :
    r.optional? name DataFormat.text? = some s := by
  rw [optional?, getD?, h]
  cases s <;> rfl

theorem getD?_list {β : Type} {encode : β → Value} {decode : Value → Option β} {bs : List β}
    (h : r.get? name = if bs.isEmpty then none else some (.list (bs.map encode)))
    (hdecode : ∀ b ∈ bs, decode (encode b) = some b) :
    r.getD? name (decodeList? decode) [] = some bs := by
  rw [getD?, h]
  cases bs with
  | nil => rfl
  | cons b bs => exact mapM_map_eq_some hdecode

theorem getD?_texts {texts : List String}
    (h : r.get? name = if texts.isEmpty then none else some (.list (texts.map .text))) :
    r.getD? name texts? [] = some texts :=
  getD?_list h fun _ _ => rfl

theorem getD?_of_some {β : Type} {decode : Value → Option β} {b default : β} {v : Value}
    (h : r.get? name = some v) (hv : decode v = some b) : r.getD? name decode default = some b := by
  rw [getD?, h]
  exact hv

end Record

/-! ## What can be stored -/

/-- A whole number in 32 bits with a sign. -/
def Fits32 (n : Int) : Prop := -0x80000000 ≤ n ∧ n ≤ 0x7fffffff

structure Rule.Storable (r : Rule) : Prop where
  priority : Fits32 r.priority
  displayOrder : Fits32 r.displayOrder

structure Config.Storable (c : Config) : Prop where
  limit : ∀ n ∈ c.limit, (n : Int) ≤ maxWhole
  rules : ∀ r ∈ c.book.rules, r.Storable

theorem whole32?_whole {n : Int} (h : Fits32 n) : Record.whole32? (Value.whole n) = some n := by
  obtain ⟨hlow, hhigh⟩ := h
  simp [Record.whole32?, Record.bounded?, DataFormat.whole?, Value.whole?, hlow, hhigh]

/-! ## The sections of the rule book -/

@[simp] theorem members_optional {β : Type} (name : String) (b : Option β) (f : β → Value) :
    (optionalEntry name (b.map f)).map Entry.member = (b.map fun b => (name, f b)).toList := by
  cases b <;> rfl

@[simp] theorem get?_members_texts (name other : String) (texts : List String) :
    (⟨(textsEntry other texts).map Entry.member⟩ : Record Value).get? name =
      if other = name then
        if texts.isEmpty then none else some (.list (texts.map .text))
      else none := by
  unfold textsEntry
  by_cases h : texts.isEmpty <;> simp [h]

@[simp] theorem get?_elementsOf (name other : String) (ess : List (List Entry)) :
    (⟨memberValues (Members.elementsOf other ess)⟩ : Record Value).get? name =
      if other = name then
        if ess.isEmpty then none else some (.list (ess.map fun es => .table (es.map Entry.member)))
      else none := by
  rw [memberValues_elementsOf]
  by_cases h : ess.isEmpty <;> simp [h]

namespace Rule

theorem distinct_toSection (r : Rule) : Distinct r.toSection.entries := by
  obtain ⟨id, name, query, target, priority, displayOrder, enabled⟩ := r
  constructor <;> cases name <;> cases target <;>
    simp [toSection, optionalEntry, Target.entries, Entry.of, Key.ofName]

/-- The fields of the section of a rule. -/
def record (r : Rule) : Record Value := ⟨r.toSection.entries.map Entry.member⟩

theorem get?_target (t : Target) {name : String} (htype : "target_type" ≠ name)
    (hid : "project_id" ≠ name) :
    (⟨t.entries.map Entry.member⟩ : Record Value).get? name = none := by
  cases t <;> simp [Target.entries, htype, hid]

theorem target_record (r : Rule) : Target.decode? r.record = some r.target := by
  unfold Target.decode? Record.required?
  cases h : r.target with
  | project id =>
    have htype : r.record.get? "target_type" = some (.text "project") := by
      simp [record, toSection, Target.entries, h]
    have hid : r.record.get? "project_id" = some (.text id) := by
      simp [record, toSection, Target.entries, h]
    rw [htype, hid]
    rfl
  | didNotAttend =>
    have htype : r.record.get? "target_type" = some (.text "did_not_attend") := by
      simp [record, toSection, Target.entries, h]
    rw [htype]
    rfl

theorem decode?_toSection {r : Rule} (hr : r.Storable) :
    decode? (Value.table (r.toSection.entries.map Entry.member)) = some r := by
  have hid : r.record.required? "id" DataFormat.text? = some r.id :=
    Record.required?_text (by simp [record, toSection, get?_target])
  have hname : r.record.optional? "name" DataFormat.text? = some r.name :=
    Record.optional?_text (by simp [record, toSection, get?_target])
  have hquery : r.record.required? "query" DataFormat.text? = some r.query :=
    Record.required?_text (by simp [record, toSection, get?_target])
  have hpriority : r.record.getD? "priority" Record.whole32? 0 = some r.priority :=
    Record.getD?_of_some (by simp [record, toSection]) (whole32?_whole hr.priority)
  have horder : r.record.getD? "display_order" Record.whole32? 0 = some r.displayOrder :=
    Record.getD?_of_some (by simp [record, toSection]) (whole32?_whole hr.displayOrder)
  have henabled : r.record.getD? "enabled" DataFormat.bool? true = some r.enabled :=
    Record.getD?_of_some (v := .bool r.enabled) (by simp [record, toSection]) rfl
  have hrecord : Record.ofMembers? (Value.table (r.toSection.entries.map Entry.member)) =
      some r.record := rfl
  simp only [decode?, hrecord, Option.bind_eq_bind, Option.bind_some, hid, hname, hquery,
    target_record, hpriority, horder, henabled]

end Rule

namespace Fingerprint

theorem distinct_toSection (f : Fingerprint) : Distinct f.toSection.entries := by
  obtain ⟨projectId, projectName, domains, emails, keywords⟩ := f
  constructor <;> cases projectName <;> cases domains <;> cases emails <;> cases keywords <;>
    simp [toSection, optionalEntry, textsEntry, Entry.of, Key.ofName]

def record (f : Fingerprint) : Record Value := ⟨f.toSection.entries.map Entry.member⟩

theorem decode?_toSection (f : Fingerprint) :
    decode? (Value.table (f.toSection.entries.map Entry.member)) = some f := by
  have hid : f.record.required? "project_id" DataFormat.text? = some f.projectId :=
    Record.required?_text (by simp [record, toSection])
  have hname : f.record.optional? "project_name" DataFormat.text? = some f.projectName :=
    Record.optional?_text (by simp [record, toSection])
  have hdomains : f.record.getD? "domains" Record.texts? [] = some f.domains :=
    Record.getD?_texts (by simp [record, toSection])
  have hemails : f.record.getD? "emails" Record.texts? [] = some f.emails :=
    Record.getD?_texts (by simp [record, toSection])
  have hkeywords : f.record.getD? "keywords" Record.texts? [] = some f.keywords :=
    Record.getD?_texts (by simp [record, toSection])
  have hrecord : Record.ofMembers? (Value.table (f.toSection.entries.map Entry.member)) =
      some f.record := rfl
  unfold decode?
  rw [hrecord]
  simp only [Option.orElse_eq_orElse, Option.orElse_some, Option.bind_eq_bind, Option.bind_some,
    hid, hname, hdomains, hemails, hkeywords]

end Fingerprint

/-! ## The whole document -/

theorem fitsWhole_iff (n : Int) : fitsWhole n = true ↔ minWhole ≤ n ∧ n ≤ maxWhole := by
  simp [fitsWhole]

theorem fitsWhole_of_fits32 {n : Int} (h : Fits32 n) : fitsWhole n = true := by
  obtain ⟨hlow, hhigh⟩ := h
  rw [fitsWhole_iff, minWhole, maxWhole]
  omega

theorem plain_of {name : String} {v : Value} (hname : BareName name) (hv : PlainValue v) :
    PlainEntry (.of name v) :=
  ⟨⟨name, rfl, hname⟩, hv⟩

theorem plain_optional {name : String} {v : Option Value} (hname : BareName name)
    (hv : ∀ w ∈ v, PlainValue w) : ∀ e ∈ optionalEntry name v, PlainEntry e := by
  cases v with
  | none => simp [optionalEntry]
  | some v => simpa [optionalEntry] using plain_of hname (hv v rfl)

theorem plain_optionalText {name : String} (s : Option String) (hname : BareName name) :
    ∀ e ∈ optionalEntry name (s.map .text), PlainEntry e := by
  refine plain_optional hname ?_
  intro v hv
  obtain ⟨s, -, rfl⟩ := Option.map_eq_some_iff.mp hv
  exact .text s

theorem plain_texts {name : String} (texts : List String) (hname : BareName name) :
    ∀ e ∈ textsEntry name texts, PlainEntry e := by
  unfold textsEntry
  split
  · simp
  · simpa using plain_of hname (.texts texts)

theorem Rule.plain_toSection {r : Rule} (hr : r.Storable) : PlainSection r.toSection := by
  refine ⟨⟨"rules", rfl, by decide⟩, ?_⟩
  have htarget : ∀ e ∈ r.target.entries, PlainEntry e := by
    cases r.target with
    | project id =>
      rw [Target.entries, List.forall_mem_cons, List.forall_mem_singleton]
      exact ⟨plain_of (by decide) (.text _), plain_of (by decide) (.text id)⟩
    | didNotAttend =>
      rw [Target.entries, List.forall_mem_singleton]
      exact plain_of (by decide) (.text _)
  simp only [toSection, List.cons_append, List.append_assoc, List.forall_mem_cons,
    List.forall_mem_append]
  exact ⟨plain_of (by decide) (.text r.id), plain_optionalText r.name (by decide),
    plain_of (by decide) (.text r.query), htarget,
    plain_of (by decide) (.whole (fitsWhole_of_fits32 hr.priority)),
    plain_of (by decide) (.whole (fitsWhole_of_fits32 hr.displayOrder)),
    plain_of (by decide) (.bool r.enabled), by simp⟩

theorem Fingerprint.plain_toSection (f : Fingerprint) : PlainSection f.toSection := by
  refine ⟨⟨"fingerprints", rfl, by decide⟩, ?_⟩
  simp only [toSection, List.cons_append, List.append_assoc, List.forall_mem_cons,
    List.forall_mem_append]
  exact ⟨plain_of (by decide) (.text f.projectId), plain_optionalText f.projectName (by decide),
    plain_texts f.domains (by decide), plain_texts f.emails (by decide),
    plain_texts f.keywords (by decide)⟩

namespace Config

theorem limitValue_eq (c : Config) :
    (c.limit.map fun n => Value.whole n) = c.limit.map fun n : Nat => Value.whole n := by
  cases c.limit <;> rfl

theorem plain_toDocument {c : Config} (hc : c.Storable) : PlainDocument c.toDocument := by
  constructor
  · simp only [toDocument, List.forall_mem_singleton]
    exact plain_of (by decide) (.whole (by decide))
  · have hoptional {name entry : String} {v : Option Value} (hname : BareName name)
        (hentry : BareName entry) (hv : ∀ w ∈ v, PlainValue w) :
        PlainSection ⟨⟨.ofName name, false⟩, optionalEntry entry v⟩ :=
      ⟨⟨name, rfl, hname⟩, plain_optional hentry hv⟩
    simp only [toDocument, List.cons_append, List.forall_mem_cons, List.forall_mem_append,
      List.forall_mem_map]
    refine ⟨hoptional (by decide) (by decide) ?_, hoptional (by decide) (by decide) ?_, ?_, ?_⟩
    · intro v hv
      obtain ⟨on, -, rfl⟩ := Option.map_eq_some_iff.mp hv
      exact .bool on
    · intro v hv
      rw [limitValue_eq] at hv
      obtain ⟨n, hn, rfl⟩ := Option.map_eq_some_iff.mp hv
      have hle := hc.limit n hn
      refine .whole ?_
      rw [fitsWhole_iff, minWhole]
      omega
    · exact fun r hr => Rule.plain_toSection (hc.rules r hr)
    · exact fun f _ => f.plain_toSection

/-- The members of the table that the document gives. -/
def members (c : Config) : List (String × Value) :=
  [("version", .whole version),
    ("output", .table (c.colour.map fun on => ("color", Value.bool on)).toList),
    ("preview", .table (c.limit.map fun n : Nat => ("limit", Value.whole n)).toList)] ++
  memberValues (Members.elementsOf "rules" (c.book.rules.map (·.toSection.entries))) ++
  memberValues (Members.elementsOf "fingerprints" (c.book.fingerprints.map (·.toSection.entries)))

theorem distinct_optional (name : String) (v : Option Value) : Distinct (optionalEntry name v) := by
  cases v <;> constructor <;> simp [optionalEntry, Entry.of, Key.ofName]

/-- The items that the sections of the preferences give after the version. -/
def preferenceItems (c : Config) : Members :=
  [("version", .value (.whole version)),
    ("output", .table .header ((optionalEntry "color" (c.colour.map .bool)).map Entry.item)),
    ("preview", .table .header
      ((optionalEntry "limit" (c.limit.map fun n : Nat => .whole n)).map Entry.item))]

theorem toDocument_eq (c : Config) :
    c.toDocument = ⟨[.of "version" (.whole version)],
      [⟨⟨.ofName "output", false⟩, optionalEntry "color" (c.colour.map .bool)⟩,
        ⟨⟨.ofName "preview", false⟩,
          optionalEntry "limit" (c.limit.map fun n : Nat => .whole n)⟩] ++
      ((c.book.rules.map (·.toSection.entries)).map fun es => ⟨⟨.ofName "rules", true⟩, es⟩) ++
      ((c.book.fingerprints.map (·.toSection.entries)).map
        fun es => ⟨⟨.ofName "fingerprints", true⟩, es⟩)⟩ := by
  rw [List.map_map, List.map_map]
  obtain ⟨colour, limit, book⟩ := c
  cases limit <;> rfl

theorem members?_toDocument (c : Config) :
    c.toDocument.members? = some (c.preferenceItems ++
      Members.elementsOf "rules" (c.book.rules.map (·.toSection.entries)) ++
      Members.elementsOf "fingerprints" (c.book.fingerprints.map (·.toSection.entries))) := by
  have hversion : Distinct [Entry.of "version" (.whole version)] := by
    constructor <;> simp [Entry.of, Key.ofName]
  have hpreferences : List.foldlM Members.insertSection?
      ([Entry.of "version" (.whole version)].map Entry.item)
      [⟨⟨.ofName "output", false⟩, optionalEntry "color" (c.colour.map .bool)⟩,
        ⟨⟨.ofName "preview", false⟩, optionalEntry "limit" (c.limit.map fun n : Nat => .whole n)⟩] =
      some c.preferenceItems := by
    rw [List.foldlM_cons, Members.insertSection?_table (distinct_optional _ _) (by decide)]
    simp only [Option.bind_eq_bind, Option.bind_some]
    rw [List.foldlM_cons, Members.insertSection?_table (distinct_optional _ _)
      (by simp [Members.names, Entry.item, Entry.of, Key.ofName])]
    rfl
  have hrules : ∀ es ∈ c.book.rules.map (·.toSection.entries), Distinct es := by
    rw [List.forall_mem_map]
    exact fun r _ => r.distinct_toSection
  have hfingerprints : ∀ es ∈ c.book.fingerprints.map (·.toSection.entries), Distinct es := by
    rw [List.forall_mem_map]
    exact fun f _ => f.distinct_toSection
  have hname : "fingerprints" ∉ Members.names (c.preferenceItems ++
      Members.elementsOf "rules" (c.book.rules.map (·.toSection.entries))) := by
    unfold Members.names Members.elementsOf
    split <;> simp [preferenceItems]
  rw [toDocument_eq]
  unfold Document.members?
  rw [Members.insertEntries?_of_distinct hversion]
  simp only [Option.bind_eq_bind, Option.bind_some, List.foldlM_append, hpreferences]
  rw [Members.insertElements? hrules (by simp [preferenceItems, Members.names])]
  simp only [Option.bind_some]
  rw [Members.insertElements? hfingerprints hname]

theorem value?_toDocument (c : Config) : c.toDocument.value? = some (.table c.members) := by
  unfold Document.value?
  rw [members?_toDocument, Option.map_some, memberValues_append, memberValues_append]
  simp only [preferenceItems, memberValues, Item.toValue, memberValues_items, members_optional]
  rfl

theorem decodeOnly?_optional {β : Type} (name : String) {encode : β → Value}
    {decode : Value → Option β} (b : Option β) (hdecode : ∀ b, decode (encode b) = some b) :
    decodeOnly? name decode (Value.table (b.map fun b => (name, encode b)).toList) = some b := by
  have hrecord : Record.ofMembers? (Value.table (b.map fun b => (name, encode b)).toList) =
      some ⟨(b.map fun b => (name, encode b)).toList⟩ := rfl
  unfold decodeOnly?
  rw [hrecord]
  simp only [Record.optional?, Record.getD?, Record.get?_optional, if_true]
  cases b with
  | none => rfl
  | some b => simp [DataFormat.isNull, hdecode]

theorem natural?_whole (n : Nat) : natural? (Value.whole n) = some n := by
  simp [natural?, DataFormat.whole?, Value.whole?]

theorem decode?_members {c : Config} (hc : c.Storable) :
    decode? (Value.table c.members) = some c := by
  let r : Record Value := ⟨c.members⟩
  have hversion : r.getD? "version" (Record.bounded? 0 maxVersion) version = some (version : Int) :=
    Record.getD?_of_some (v := .whole version) (by simp [r, members]) (by decide)
  have hcolour : r.getD? "output" (decodeOnly? "color" DataFormat.bool?) none = some c.colour :=
    Record.getD?_of_some (by simp [r, members]; rfl)
      (decodeOnly?_optional "color" c.colour fun _ => rfl)
  have hlimit : r.getD? "preview" (decodeOnly? "limit" natural?) none = some c.limit :=
    Record.getD?_of_some (by simp [r, members])
      (decodeOnly?_optional "limit" c.limit natural?_whole)
  have hrules : r.getD? "rules" (Record.decodeList? Rule.decode?) [] = some c.book.rules :=
    Record.getD?_list (by simp [r, members]; rfl) fun rule hrule =>
      Rule.decode?_toSection (hc.rules rule hrule)
  have hfingerprints : r.getD? "fingerprints" (Record.decodeList? Fingerprint.decode?) [] =
      some c.book.fingerprints :=
    Record.getD?_list (by simp [r, members]; rfl) fun f _ => f.decode?_toSection
  have hrecord : Record.ofMembers? (Value.table c.members) = some r := rfl
  simp only [decode?, RuleBook.decode?, hrecord, Option.bind_eq_bind, Option.bind_some, hversion,
    hcolour, hlimit, hrules, hfingerprints]

/-! ## Storing and loading -/

theorem toText?_of_storable {c : Config} (hc : c.Storable) : ∃ text, c.toText? = some text := by
  have hplain := plain_toDocument hc
  unfold toText? Document.write?
  rw [if_pos hplain.isWritable]
  exact ⟨_, rfl⟩

/-- What is stored of a configuration is loaded as the configuration. -/
theorem ofString?_toText {c : Config} (hc : c.Storable) {text : String}
    (htext : c.toText? = some text) : ofString? text = some c := by
  have hdocument := Document.ofChars?_write (plain_toDocument hc) htext
  unfold ofString? Toml.Value.ofString?
  rw [hdocument, Option.bind_some, value?_toDocument, Option.bind_some, decode?_members hc]

theorem toText?_eq_none {c : Config} {n : Nat} (hlimit : c.limit = some n)
    (hlarge : maxWhole < n) : c.toText? = none := by
  have hmem : Entry.of "limit" (.whole n) ∈
      c.toDocument.entries ++ c.toDocument.sections.flatMap (·.entries) := by
    simp [toDocument_eq, hlimit, optionalEntry]
  have hwritable : c.toDocument.isWritable = false := by
    refine List.all_eq_false.mpr ⟨_, hmem, ?_⟩
    simp only [Entry.of, Value.isWritable, fitsWhole_iff]
    omega
  unfold toText? Document.write?
  rw [hwritable]
  rfl

end Config

end CalendarRules
