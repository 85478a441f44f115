import CalendarRules.Proofs.Event.Spelled
import CalendarRules.Proofs.Json.Reading

/-!
# The column of attendees holds a list or a text of one

A list of addresses may be stored as it is or as a JSON text. Either way its texts are the attendees
and its other items count for nothing. Any other value means that there are no attendees.
-/

namespace CalendarRules

open Json

/-! ## Lists of texts -/

/-- These are the texts among the values, in their order. -/
inductive Interspersed : List String → List Value → Prop where
  | nil : Interspersed [] []
  | text (s : String) {ss vs} (h : Interspersed ss vs) : Interspersed (s :: ss) (.text s :: vs)
  | other {v ss vs} (hv : ∀ s, v ≠ .text s) (h : Interspersed ss vs) : Interspersed ss (v :: vs)

theorem interspersed_map (ss : List String) : Interspersed ss (ss.map .text) := by
  induction ss with
  | nil => exact .nil
  | cons s ss ih => exact .text s ih

theorem Interspersed.texts {ss : List String} {vs : List Value} (h : Interspersed ss vs) :
    Cell.texts vs = ss := by
  induction h with
  | nil => rfl
  | text s _ ih =>
    have hsome : (Value.text s).text? = some s := rfl
    rw [Cell.texts, List.filterMap_cons_some hsome, ← Cell.texts, ih]
  | @other v _ _ hv _ ih =>
    have hnone : v.text? = none := by
      cases v with
      | text s => exact absurd rfl (hv s)
      | _ => rfl
    rw [Cell.texts, List.filterMap_cons_none hnone, ← Cell.texts, ih]

/-! ## Columns -/

/-- The value is the list, or a text that stands for it. -/
inductive HoldsList (vs : List Value) : Value → Prop where
  | list : HoldsList vs (.list vs)
  | text {s : String} (hs : Spelled (.list vs) s.toList)
      (hdepth : (Value.list vs).depth ≤ maxNesting) : HoldsList vs (.text s)

theorem HoldsList.addresses {vs : List Value} {v : Value} (h : HoldsList vs v) :
    Cell.addresses v = Cell.texts vs := by
  cases h with
  | list => rfl
  | text hs hdepth => rw [Cell.addresses, Value.ofString?_spelled hs hdepth]

theorem Cell.addresses_of_holds_none {v : Value} (h : ∀ vs, ¬ HoldsList vs v) :
    addresses v = [] := by
  cases v with
  | list vs => exact absurd .list (h vs)
  | text s =>
    rw [addresses]
    split
    · rename_i vs hread
      obtain ⟨hs, hdepth⟩ := (Value.ofString?_eq_some_iff s _).mp hread
      exact absurd (.text hs hdepth) (h vs)
    · rfl
  | _ => rfl

theorem not_holdsList_text {w : Value} {s : String} (hs : Spelled w s.toList)
    (hw : ∀ vs, w ≠ .list vs) (vs : List Value) : ¬ HoldsList vs (.text s) := by
  intro h
  cases h with
  | text hlist => exact hw vs (hs.unique hlist)

theorem holdsList_written {vs : List Value} (h : (Value.list vs).Prints maxNesting) :
    HoldsList vs (.text (Value.list vs).line) ∧ HoldsList vs (.text (Value.list vs).page) := by
  refine ⟨.text ?_ h.depth, .text ?_ h.depth⟩
  · rw [Value.line, String.toList_ofList]
    exact Value.spelled_compact _ h.printable
  · rw [Value.page, String.toList_ofList]
    exact Value.spelled_pretty _ h.printable 0

theorem prints_texts (ss : List String) : (Value.list (ss.map .text)).Prints maxNesting := by
  have hlist : (Value.list (ss.map .text)).Prints 1 := by
    refine .list fun v hv => ?_
    obtain ⟨s, -, rfl⟩ := List.mem_map.mp hv
    exact .text s
  exact hlist.mono (by decide)

/-! ## Rows and events -/

namespace Event

/-- The attendees that are read from what the column holds. -/
def columnAttendees (cell : Option Value) : List String := (cell.map Cell.addresses).getD []

theorem set_attendees_of_ne {c : Column} (hc : c ≠ .attendees) (e : Event) (v : Value) :
    (e.set c v).attendees = e.attendees := by
  cases c with
  | attendees => exact absurd rfl hc
  | _ => rfl

theorem attendees_foldl {columns : List (Column × Value)} (h : ∀ a ∈ columns, a.1 ≠ .attendees)
    (e : Event) : (columns.foldl (fun e a => e.set a.1 a.2) e).attendees = e.attendees := by
  induction columns generalizing e with
  | nil => rfl
  | cons a columns ih =>
    obtain ⟨ha, hcolumns⟩ := List.forall_mem_cons.mp h
    rw [List.foldl_cons, ih hcolumns, set_attendees_of_ne ha]

theorem attendees_ofValue?_list {items : List Value} (h : items.length ≤ Column.all.length) :
    ∃ e, ofValue? (.list items) = some e ∧ e.attendees = columnAttendees items[3]? := by
  refine ⟨ofColumns (Column.all.zip items), by rw [ofValue?, if_pos h], ?_⟩
  rcases items with _ | ⟨id, _ | ⟨title, _ | ⟨description, _ | ⟨v, rest⟩⟩⟩⟩
  case cons.cons.cons.cons =>
    have hsplit : ofColumns (Column.all.zip (id :: title :: description :: v :: rest)) =
        ((Column.all.drop 4).zip rest).foldl (fun e a => e.set a.1 a.2)
          (ofColumns [(.id, id), (.title, title), (.description, description), (.attendees, v)]) :=
      rfl
    have hother : ∀ a ∈ (Column.all.drop 4).zip rest, a.1 ≠ .attendees := by
      rintro ⟨c, w⟩ ha rfl
      exact absurd (List.of_mem_zip ha).1 (by decide)
    rw [hsplit, attendees_foldl hother]
    rfl
  all_goals rfl

theorem ofString?_row {row : Row} {cs : List Char} (h : Spelled (.object row.members) cs)
    (hdepth : (Value.object row.members).depth ≤ maxNesting)
    (honce : ((columnsOf row.members).map (·.1)).Nodup) :
    ofString? (String.ofList cs) = some row.read := by
  obtain ⟨source, hsource, hvalue⟩ := h.ofChars?
  rw [ofString?, Source.ofString?, String.toList_ofList, hsource]
  exact (ofSource?_object (hvalue _ hdepth) honce).trans (ofValue?_row row)

/-- Whatever else there is, and in whatever form the event is given, it has these attendees when
the column holds this. -/
structure ColumnGives (cell : Option Value) (ss : List String) : Prop where
  row : ∀ row : Row, row.get? .attendees = cell → row.read.attendees = ss
  object : ∀ row : Row, row.get? .attendees = cell →
    ∃ e, ofValue? (.object row.members) = some e ∧ e.attendees = ss
  list : ∀ items : List Value, items.length ≤ Column.all.length → items[3]? = cell →
    ∃ e, ofValue? (.list items) = some e ∧ e.attendees = ss
  source : ∀ (row : Row) (cs : List Char), row.get? .attendees = cell →
    Spelled (.object row.members) cs → (Value.object row.members).depth ≤ maxNesting →
    ((columnsOf row.members).map (·.1)).Nodup →
    ∃ e, ofString? (String.ofList cs) = some e ∧ e.attendees = ss

theorem columnGives (cell : Option Value) : ColumnGives cell (columnAttendees cell) where
  row row h := by rw [← h]; rfl
  object row h := ⟨_, ofValue?_row row, by rw [← h]; rfl⟩
  list items hlength h := by rw [← h]; exact attendees_ofValue?_list hlength
  source row cs h hs hdepth honce := ⟨_, ofString?_row hs hdepth honce, by rw [← h]; rfl⟩

theorem read_eq_of_attendees {row row' : Row}
    (hother : ∀ c, c ≠ Column.attendees → row.get? c = row'.get? c)
    (h : row.read.attendees = row'.read.attendees) : row.read = row'.read := by
  have hcell (c : Column) (hc : c ≠ .attendees) := hother c hc
  simp only [Row.read, Row.text, Row.label] at h ⊢
  rw [h, hcell .id (by decide), hcell .title (by decide), hcell .description (by decide),
    hcell .isRecurring (by decide), hcell .responseStatus (by decide),
    hcell .transparency (by decide), hcell .visibility (by decide), hcell .color (by decide),
    hcell .recurrenceId (by decide), hcell .startTime (by decide), hcell .endTime (by decide)]

/-- A column that holds a list, as it is or as a text with blanks anywhere, gives the texts in the
list, and any other column gives no attendees: one that is missing, and one that holds something
else or the text of something else, be it the text of a text of a list. Nothing tells apart two
events that have the same attendees in columns of different forms. -/
theorem attendees_column_read :
    (∀ ss vs v, Interspersed ss vs → HoldsList vs v → ColumnGives (some v) ss) ∧
    (∀ vs, (Value.list vs).Prints maxNesting →
      HoldsList vs (.text (Value.list vs).line) ∧ HoldsList vs (.text (Value.list vs).page)) ∧
    (∀ ss : List String, Interspersed ss (ss.map .text) ∧
      (Value.list (ss.map .text)).Prints maxNesting) ∧
    (∀ cell : Option Value, (∀ v ∈ cell, ∀ vs, ¬ HoldsList vs v) → ColumnGives cell []) ∧
    (∀ w (s : String), Spelled w s.toList → (∀ vs, w ≠ .list vs) →
      ∀ vs, ¬ HoldsList vs (.text s)) ∧
    ∀ (row row' : Row) ss vs vs' v v',
      row.get? .attendees = some v → row'.get? .attendees = some v' →
      Interspersed ss vs → HoldsList vs v → Interspersed ss vs' → HoldsList vs' v' →
      (∀ c, c ≠ Column.attendees → row.get? c = row'.get? c) →
      ofValue? (.object row.members) = ofValue? (.object row'.members) ∧
        (∀ q : Query, q.holds row.read = q.holds row'.read) ∧
        ∀ b : RuleBook,
          (Classifier.ofBook b).classify row.read = (Classifier.ofBook b).classify row'.read := by
  have hgives {ss vs v} (hss : Interspersed ss vs) (hv : HoldsList vs v) :
      ColumnGives (some v) ss := by
    have hcell : columnAttendees (some v) = ss := hv.addresses.trans hss.texts
    exact hcell ▸ columnGives (some v)
  refine ⟨fun ss vs v hss hv => hgives hss hv, fun vs => holdsList_written,
    fun ss => ⟨interspersed_map ss, prints_texts ss⟩, fun cell h => ?_,
    fun w s hs hw => not_holdsList_text hs hw, ?_⟩
  · have hcell : columnAttendees cell = [] := by
      cases cell with
      | none => rfl
      | some v => exact Cell.addresses_of_holds_none (h v rfl)
    exact hcell ▸ columnGives cell
  · intro row row' ss vs vs' v v' hrow hrow' hss hv hss' hv' hother
    have hsame : row.read.attendees = row'.read.attendees :=
      ((hgives hss hv).row row hrow).trans ((hgives hss' hv').row row' hrow').symm
    have hread := read_eq_of_attendees hother hsame
    exact ⟨by rw [ofValue?_row, ofValue?_row, hread], fun q => by rw [hread],
      fun b => by rw [hread]⟩

/-- A text with blanks in it, a list with another item, and the text of a text of a list. -/
theorem attendees_column_read_forms :
    let vs : List Value := [.text "a@b.c", .null]
    let vs' : List Value := [.bool true, .text "a@b.c"]
    let spaced := "[ \"a@b.c\" , null ]"
    let twice := (Value.text (Value.list vs).line).line
    let row : Row := ⟨[("title", .text "Sync"), ("attendees", .text spaced)]⟩
    let row' : Row := ⟨[("attendees", .list vs'), ("title", .text "Sync")]⟩
    Interspersed ["a@b.c"] vs ∧ HoldsList vs (.text spaced) ∧ Interspersed ["a@b.c"] vs' ∧
      HoldsList vs' (.list vs') ∧ row.read.attendees = ["a@b.c"] ∧
      (∀ c, c ≠ Column.attendees → row.get? c = row'.get? c) ∧
      ofValue? (.object row.members) = ofValue? (.object row'.members) ∧
      (Value.list vs).Prints maxNesting ∧ HoldsList vs (.text (Value.list vs).page) ∧
      Spelled (.text (Value.list vs).line) twice.toList ∧ (∀ vs, ¬ HoldsList vs (.text twice)) ∧
      ColumnGives (some (.text twice)) [] := by
  intro vs vs' spaced twice row row'
  have hvs : Interspersed ["a@b.c"] vs := .text _ (.other (by simp) .nil)
  have hvs' : Interspersed ["a@b.c"] vs' := .other (by simp) (.text _ .nil)
  have hspaced : HoldsList vs (.text spaced) := by
    have hfirst : Spelled (.text "a@b.c") ([' '] ++ writeText "a@b.c" ++ [' ']) :=
      .spaced blank_space (.text (quotedText_writeText _)) blank_space
    have hlast : Spelled .null ([' '] ++ ['n', 'u', 'l', 'l'] ++ [' ']) :=
      .spaced blank_space .null blank_space
    have htext : spaced.toList = '[' :: ([' '] ++ writeText "a@b.c" ++ [' '] ++ ',' ::
        ([' '] ++ ['n', 'u', 'l', 'l'] ++ [' '])) ++ [']'] := by
      decide +kernel
    exact .text (by rw [htext]; exact .list (.cons hfirst (.one hlast))) (by decide)
  have hother : ∀ c, c ≠ Column.attendees → row.get? c = row'.get? c := by
    intro c hc
    cases c with
    | attendees => exact absurd rfl hc
    | _ => rfl
  have hprints : (Value.list vs).Prints maxNesting :=
    ⟨by simp [vs, Value.Printable, Value.numbers, itemNumbers], by decide⟩
  have htwice : Spelled (.text (Value.list vs).line) twice.toList := by
    have hquoted : twice.toList = writeText (Value.list vs).line := String.toList_ofList
    rw [hquoted]
    exact .text (quotedText_writeText _)
  obtain ⟨hgives, hwritten, -, hnone, hnotList, halike⟩ := attendees_column_read
  have hnot : ∀ vs, ¬ HoldsList vs (.text twice) := hnotList _ _ htwice (by simp)
  refine ⟨hvs, hspaced, hvs', .list, (hgives _ _ _ hvs hspaced).row row rfl, hother, ?_, hprints,
    (hwritten vs hprints).2, htwice, hnot, hnone _ ?_⟩
  · exact (halike row row' _ _ _ _ _ rfl rfl hvs hspaced hvs' .list hother).1
  · rintro v ⟨⟩
    exact hnot

end Event

end CalendarRules
