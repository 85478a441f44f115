import CalendarRules.Proofs.Event.Stored
import CalendarRules.Proofs.Json.Page

/-!
# Stored events in a text

However a stored event is spelled, decoding the text gives what decoding its value gives.
-/

namespace CalendarRules.Event

open Json

/-! ## Columns without their values being read first -/

theorem sourceColumns?_eq {room : Nat} {sources : List (List Piece × Source)}
    {members : List (String × Value)} (h : memberValues? room sources = some members) :
    sourceColumns? room sources = some (columnsOf members) := by
  induction sources generalizing members with
  | nil =>
    rw [memberValues?, Option.some.injEq] at h
    rw [← h]
    rfl
  | cons source sources ih =>
    obtain ⟨ps, s⟩ := source
    simp only [memberValues?, Option.bind_eq_bind, Option.bind_eq_some_iff, Option.some.injEq] at h
    obtain ⟨name, hname, v, hv, rest, hrest, rfl⟩ := h
    cases hcolumn : Column.ofName? name with
    | none => simp [sourceColumns?, columnsOf, hname, hcolumn, ih hrest]
    | some c => simp [sourceColumns?, columnsOf, hname, hcolumn, hv, ih hrest]

theorem ofSource?_object {room : Nat} {source : Source} {members : List (String × Value)}
    (h : source.value? room = some (.object members))
    (honce : ((columnsOf members).map (·.1)).Nodup) :
    ofSource? room source = ofValue? (.object members) := by
  cases source with
  | object sources =>
    rw [Source.value?] at h
    split at h
    · cases h
    · rename_i hroom
      obtain ⟨ms, hms, hm⟩ := Option.map_eq_some_iff.mp h
      cases hm
      simp [ofSource?, ofValue?, hroom, sourceColumns?_eq hms, honce]
  | _ => simp_all [Source.value?]

/-! ## Stored events -/

theorem columnsOf_toRow (e : Event) :
    columnsOf e.toRow.members = Column.all.filterMap fun c => (e.cell? c).map (c, ·) := by
  rw [columnsOf, toRow, List.filterMap_filterMap]
  congr 1
  funext c
  cases e.cell? c <;> simp [Column.ofName?_name]

theorem nodup_columnsOf_toRow (e : Event) : ((columnsOf e.toRow.members).map (·.1)).Nodup := by
  have hcolumns : (columnsOf e.toRow.members).map (·.1) =
      Column.all.filter fun c => (e.cell? c).isSome := by
    rw [columnsOf_toRow, List.map_filterMap, ← List.filterMap_eq_filter]
    congr 1
    funext c
    cases hc : e.cell? c <;> simp [Option.guard, hc]
  rw [hcolumns]
  exact List.Pairwise.filter _ (by decide)

theorem ofSource?_toValue {room : Nat} {source : Source} {e : Event}
    (h : source.value? room = some e.toValue) : ofSource? room source = ofValue? e.toValue :=
  ofSource?_object h e.nodup_columnsOf_toRow

theorem prints_toValue (e : Event) : e.toValue.Prints 2 := by
  refine .object fun m hm => ?_
  obtain ⟨c, -, hc⟩ := List.mem_filterMap.mp hm
  obtain ⟨v, hv, rfl⟩ := Option.map_eq_some_iff.mp hc
  have htext {s : Option String} (h : s.map Value.text = some v) : v.Prints 1 := by
    obtain ⟨s, -, rfl⟩ := Option.map_eq_some_iff.mp h
    exact .text s
  cases c with
  | attendees =>
    cases hv
    refine .list fun w hw => ?_
    obtain ⟨s, -, rfl⟩ := List.mem_map.mp hw
    exact .text s
  | isRecurring =>
    obtain ⟨b, -, rfl⟩ := Option.map_eq_some_iff.mp hv
    exact .bool b
  | _ => exact htext hv

theorem prints_list (es : List Event) : (Value.list (es.map toValue)).Prints 3 := by
  refine .list fun v hv => ?_
  obtain ⟨e, -, rfl⟩ := List.mem_map.mp hv
  exact e.prints_toValue

/-- The event that is read back when the event is stored. -/
def reread (e : Event) : Event := { e with isRecurring := some (e.isRecurring.getD false) }

theorem ofString?_spelled {e : Event} {cs : List Char} (h : Spelled e.toValue cs) :
    ofString? (String.ofList cs) = some e.reread := by
  obtain ⟨source, hsource, hvalue⟩ := h.ofChars?
  have hroom : e.toValue.depth ≤ maxNesting := Nat.le_trans e.prints_toValue.depth (by decide)
  rw [ofString?, Source.ofString?, String.toList_ofList, hsource]
  exact (ofSource?_toValue (hvalue _ hroom)).trans e.ofValue?_toValue

end CalendarRules.Event
