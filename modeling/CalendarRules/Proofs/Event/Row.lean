import CalendarRules.Event.Decode
import CalendarRules.Event.Row
import CalendarRules.Rule.Report
import Mathlib.Data.List.Induction

/-!
# A decoded event and its raw row tell the same

Decoding takes the members of a row one after the other, and a raw row is asked for one column at a
time. Both come down to one value for each column, the last one that the row gives.
-/

namespace CalendarRules

open Json

/-! ## Columns and their names -/

theorem Column.ofName?_name (c : Column) : ofName? c.name = some c := by
  cases c <;> rfl

theorem Column.ofName?_eq_some_iff (name : String) (c : Column) :
    ofName? name = some c ↔ name = c.name := by
  constructor
  · intro h
    have hname := List.find?_some (p := fun d : Column => d.name == name) h
    exact (beq_iff_eq.mp hname).symm
  · rintro rfl
    exact c.ofName?_name

theorem findLast_concat {α β : Type} [DecidableEq α] (pairs : List (α × β)) (a b : α) (v : β) :
    ((pairs ++ [(a, v)]).reverse.find? (·.1 == b)).map (·.2) =
      if b = a then some v else (pairs.reverse.find? (·.1 == b)).map (·.2) := by
  rw [List.reverse_append, List.reverse_singleton, List.singleton_append, List.find?_cons]
  by_cases h : b = a
  · simp [h]
  · have hab : (a == b) = false := beq_eq_false_iff_ne.mpr (Ne.symm h)
    simp [h, hab]

/-! ## Events by their cells -/

namespace Event

/-- The event whose columns hold the given values. -/
def ofCells (cell : Column → Option Value) : Event where
  id := (cell .id).bind Cell.label
  title := (cell .title).bind Cell.text
  description := (cell .description).bind Cell.text
  attendees := ((cell .attendees).map Cell.addresses).getD []
  isRecurring := Cell.flag (cell .isRecurring)
  responseStatus := (cell .responseStatus).bind Cell.text
  transparency := (cell .transparency).bind Cell.text
  visibility := (cell .visibility).bind Cell.text
  color := (cell .color).bind Cell.label
  recurrenceId := (cell .recurrenceId).bind Cell.text
  startTime := (cell .startTime).bind Cell.text
  endTime := (cell .endTime).bind Cell.text

theorem ofCells_set (cell : Column → Option Value) (c : Column) (v : Value) :
    (ofCells cell).set c v = ofCells fun d => if d = c then some v else cell d := by
  cases c <;> simp [ofCells, set]

/-- The value that the last pair with a column gives it. -/
def lastCell (columns : List (Column × Value)) (c : Column) : Option Value :=
  (columns.reverse.find? (·.1 == c)).map (·.2)

theorem ofColumns_eq (columns : List (Column × Value)) :
    ofColumns columns = ofCells (lastCell columns) := by
  induction columns using List.reverseRecOn with
  | nil => rfl
  | append_singleton columns last ih =>
    obtain ⟨c, v⟩ := last
    have hset : ofColumns (columns ++ [(c, v)]) = (ofColumns columns).set c v := by
      simp [ofColumns]
    rw [hset, ih, ofCells_set]
    congr 1
    funext d
    exact (findLast_concat columns c d v).symm

theorem lastCell_columnsOf (members : List (String × Value)) (c : Column) :
    lastCell (columnsOf members) c = findMember? c.name members := by
  -- The last member with a name counts, so the list is taken from its end.
  induction members using List.reverseRecOn with
  | nil => rfl
  | append_singleton members last ih =>
    obtain ⟨name, v⟩ := last
    have hmember := findLast_concat members name c.name v
    cases hcol : Column.ofName? name with
    | none =>
      have hne : c.name ≠ name := by
        intro h
        rw [(Column.ofName?_eq_some_iff name c).mpr h.symm] at hcol
        cases hcol
      rw [if_neg hne] at hmember
      have hskip : columnsOf (members ++ [(name, v)]) = columnsOf members := by
        simp [columnsOf, hcol]
      rw [hskip, ih]
      exact hmember.symm
    | some d =>
      have hname : c.name = name ↔ c = d := by
        constructor
        · intro h
          rw [(Column.ofName?_eq_some_iff name c).mpr h.symm] at hcol
          exact Option.some.inj hcol
        · rintro rfl
          exact ((Column.ofName?_eq_some_iff name c).mp hcol).symm
      have hadd : columnsOf (members ++ [(name, v)]) = columnsOf members ++ [(d, v)] := by
        simp [columnsOf, hcol]
      have hlast : lastCell (columnsOf members ++ [(d, v)]) c =
          if c = d then some v else lastCell (columnsOf members) c :=
        findLast_concat (columnsOf members) d c v
      rw [hadd, hlast, ih]
      simp only [hname] at hmember
      exact hmember.symm

theorem ofCells_get? (row : Row) : ofCells row.get? = row.read := rfl

theorem ofValue?_row (row : Row) : ofValue? (.object row.members) = some row.read := by
  rw [ofValue?, ofColumns_eq, ← ofCells_get?]
  congr 2
  funext c
  exact lastCell_columnsOf row.members c

theorem mapM_ofValue?_row (rows : List Row) :
    rows.mapM (fun row => ofValue? (.object row.members)) = some (rows.map Row.read) := by
  simp only [ofValue?_row]
  exact List.mapM_pure

/-! ## Rows under a query and under a book -/

/-- Rows of any values decode, and an event has in each column what its raw row has there. So no
query and no rule book tells the events from the rows. -/
theorem decoded_rows_agree (rows : List Row) :
    ∃ events, rows.mapM (fun row => ofValue? (.object row.members)) = some events ∧
      events = rows.map Row.read ∧
      (∀ q : Query, events.map q.holds = rows.map fun row => q.holds row.read) ∧
      ∀ b : RuleBook,
        (Classifier.ofBook b).apply events = (Classifier.ofBook b).apply (rows.map Row.read) ∧
        ((Classifier.ofBook b).apply events).outcomes =
          rows.mapIdx fun i row => ⟨i, row.label .id, (Classifier.ofBook b).classify row.read⟩ := by
  refine ⟨rows.map Row.read, mapM_ofValue?_row rows, rfl, ?_, ?_⟩
  · intro q
    exact List.map_map
  · intro b
    refine ⟨rfl, List.ext_getElem ?_ ?_⟩
    · simp [Classifier.apply]
    · intro i hevent hrow
      simp only [Classifier.apply, List.getElem_mapIdx, List.getElem_map]
      rfl

end Event

end CalendarRules
