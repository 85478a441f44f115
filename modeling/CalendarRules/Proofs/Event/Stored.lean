import CalendarRules.Event.Encode
import CalendarRules.Proofs.Event.Row
import CalendarRules.Query.Matches

/-!
# Events that are stored and read again

What is left out of a stored event is what is read for a missing column, for every field but one: an
unknown flag is left out, and a missing flag is off.
-/

namespace CalendarRules.Event

open Json

/-! ## The cells of a stored event -/

theorem findMember?_filterMap (cell : Column → Option Value) (columns : List Column) (c : Column) :
    findMember? c.name (columns.filterMap fun d => (cell d).map (d.name, ·)) =
      if c ∈ columns then cell c else none := by
  induction columns using List.reverseRecOn with
  | nil => rfl
  | append_singleton columns d ih =>
    have hname : c.name = d.name ↔ c = d := by
      rw [← Column.ofName?_eq_some_iff, Column.ofName?_name, Option.some.injEq, eq_comm]
    simp only [List.filterMap_append, List.mem_append, List.mem_singleton]
    cases hcell : cell d with
    | none =>
      simp only [List.filterMap_cons, hcell, Option.map_none, List.filterMap_nil, List.append_nil,
        ih]
      by_cases hc : c = d
      · simp [hc, hcell]
      · simp [hc]
    | some v =>
      have hlast := findLast_concat
        (columns.filterMap fun d => (cell d).map (d.name, ·)) d.name c.name v
      simp only [List.filterMap_cons, hcell, Option.map_some, List.filterMap_nil]
      rw [findMember?, hlast]
      by_cases hc : c = d
      · simp [hc, hcell]
      · rw [if_neg (mt hname.mp hc)]
        simp only [hc, or_false]
        exact ih

/-- The row that an event is stored as. -/
def toRow (e : Event) : Row := ⟨Column.all.filterMap fun c => (e.cell? c).map (c.name, ·)⟩

theorem get?_toRow (e : Event) (c : Column) : e.toRow.get? c = e.cell? c := by
  have hmem : c ∈ Column.all := by cases c <;> decide
  rw [Row.get?, toRow, findMember?_filterMap, if_pos hmem]

/-! ## Reading again -/

theorem bind_text (s : Option String) : (s.map Value.text).bind Cell.text = s := by
  cases s <;> rfl

theorem bind_label (s : Option String) : (s.map Value.text).bind Cell.label = s := by
  cases s <;> rfl

theorem addresses_ofTexts (ss : List String) : Cell.addresses (.ofTexts ss) = ss := by
  rw [Value.ofTexts, Cell.addresses, Cell.texts, List.filterMap_map]
  exact List.filterMap_some

theorem flag_map_bool (b : Option Bool) : Cell.flag (b.map .bool) = some (b.getD false) := by
  cases b <;> rfl

theorem ofValue?_toValue (e : Event) :
    ofValue? e.toValue = some { e with isRecurring := some (e.isRecurring.getD false) } := by
  have hread : ofValue? e.toValue = some e.toRow.read := ofValue?_row e.toRow
  have hcells : e.toRow.read = ofCells e.cell? := by
    rw [← ofCells_get?]
    congr 1
    funext c
    exact e.get?_toRow c
  rw [hread, hcells]
  simp [ofCells, cell?, bind_text, bind_label, addresses_ofTexts, flag_map_bool]

/-- An event is read back as it was if and only if its flag is known. -/
theorem reread_eq_iff (e : Event) : ofValue? e.toValue = some e ↔ e.isRecurring ≠ none := by
  rw [ofValue?_toValue, Option.some.injEq]
  obtain ⟨_, _, _, _, flag, _, _, _, _, _, _, _⟩ := e
  cases flag <;> simp

/-- A row with a number for its flag gives an event that no query for single events finds, until it
is stored and read again. -/
theorem reread_changes_answer :
    let q : Query := ⟨[.term (Term.of "recurring" "no")]⟩
    ∃ e reread, ofValue? (.object [("is_recurring", .ofNat 1)]) = some e ∧
      ofValue? e.toValue = some reread ∧ reread ≠ e ∧
      q.holds e = false ∧ q.holds reread = true := by
  intro q
  refine ⟨_, _, rfl, rfl, by decide, ?_, ?_⟩ <;> decide +kernel

end CalendarRules.Event
