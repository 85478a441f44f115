import CalendarRules.Toml.Table
import Mathlib.Data.List.Nodup

/-!
# The table that a document of plain names gives

Each name is given once, so the entries become members in their order, and the sections of one
name become the elements of one list.
-/

namespace CalendarRules.Toml

/-! ## Members -/

namespace Members

def names (ms : Members) : List String := ms.map (·.1)

theorem get?_eq_none_iff (ms : Members) (name : String) :
    ms.get? name = none ↔ name ∉ ms.names := by
  simp only [get?, names, Option.map_eq_none_iff, List.find?_eq_none, List.mem_map, beq_iff_eq]
  constructor
  · rintro h ⟨m, hm, rfl⟩
    exact h m hm rfl
  · rintro h m hm rfl
    exact h ⟨m, hm, rfl⟩

theorem set_of_not_mem {ms : Members} {name : String} (item : Item) (h : name ∉ ms.names) :
    ms.set name item = ms ++ [(name, item)] := by
  induction ms with
  | nil => rfl
  | cons m ms ih =>
    obtain ⟨hne, hms⟩ := not_or.mp (mt List.mem_cons.mpr h)
    rw [set, if_neg (Ne.symm hne), ih hms, List.cons_append]

theorem get?_concat {ms : Members} {name : String} (item : Item) (h : name ∉ ms.names) :
    get? (ms ++ [(name, item)]) name = some item := by
  have hfind : ms.find? (·.1 == name) = none := by
    simpa only [get?, Option.map_eq_none_iff] using (get?_eq_none_iff ms name).mpr h
  simp [get?, hfind]

theorem set_concat {ms : Members} {name : String} (item item' : Item) (h : name ∉ ms.names) :
    set name item' (ms ++ [(name, item)]) = ms ++ [(name, item')] := by
  induction ms with
  | nil => simp [set]
  | cons m ms ih =>
    obtain ⟨hne, hms⟩ := not_or.mp (mt List.mem_cons.mpr h)
    rw [List.cons_append, set, if_neg (Ne.symm hne), ih hms, List.cons_append]

end Members

/-! ## Entries -/

namespace Entry

/-- The member that an entry of one plain name becomes. -/
def member (e : Entry) : String × Value := (e.key.name, e.value)

def item (e : Entry) : String × Item := (e.key.name, .value e.value)

@[simp] theorem member_of (name : String) (v : Value) : (Entry.of name v).member = (name, v) := rfl

end Entry

theorem memberValues_append (ms ns : Members) :
    memberValues (ms ++ ns) = memberValues ms ++ memberValues ns := by
  induction ms with
  | nil => rfl
  | cons m ms ih => rw [List.cons_append, memberValues, memberValues, ih, List.cons_append]

theorem memberValues_items (es : List Entry) :
    memberValues (es.map Entry.item) = es.map Entry.member := by
  induction es with
  | nil => rfl
  | cons e es ih => rw [List.map_cons, List.map_cons, Entry.item, memberValues, ih]; rfl

/-- The entries are of plain names, each of them given once. -/
structure Distinct (es : List Entry) : Prop where
  path : ∀ e ∈ es, e.key.path = []
  names : (es.map (·.key.name)).Nodup

namespace Members

theorem insertEntry?_of_not_mem {ms : Members} {e : Entry} (hpath : e.key.path = [])
    (hname : e.key.name ∉ ms.names) : insertEntry? ms e = some (ms ++ [e.item]) := by
  have hget : ms.get? e.key.name = none := (get?_eq_none_iff ms _).mpr hname
  unfold insertEntry?
  rw [hpath, insert?, hget, set_of_not_mem _ hname]
  rfl

theorem insertEntries?_append {ms : Members} {es : List Entry} (hpath : ∀ e ∈ es, e.key.path = [])
    (hnames : (ms.names ++ es.map (·.key.name)).Nodup) :
    insertEntries? ms es = some (ms ++ es.map Entry.item) := by
  induction es generalizing ms with
  | nil => rw [List.map_nil, List.append_nil]; rfl
  | cons e es ih =>
    obtain ⟨he, hes⟩ := List.forall_mem_cons.mp hpath
    have hname : e.key.name ∉ ms.names := by
      intro hmem
      exact List.disjoint_of_nodup_append hnames hmem List.mem_cons_self
    have hmore : (names (ms ++ [e.item]) ++ es.map (·.key.name)).Nodup := by
      rw [names, List.map_append, List.append_assoc]
      exact hnames
    rw [insertEntries?, List.foldlM_cons, insertEntry?_of_not_mem he hname]
    simp only [Option.bind_eq_bind, Option.bind_some]
    rw [← insertEntries?, ih hes hmore, List.map_cons, List.append_assoc, List.singleton_append]

theorem insertEntries?_of_distinct {es : List Entry} (h : Distinct es) :
    insertEntries? [] es = some (es.map Entry.item) :=
  insertEntries?_append h.path h.names

/-! ## Sections -/

theorem insertSection?_table {ms : Members} {name : String} {es : List Entry} (hes : Distinct es)
    (hname : name ∉ ms.names) :
    insertSection? ms ⟨⟨.ofName name, false⟩, es⟩ =
      some (ms ++ [(name, .table .header (es.map Entry.item))]) := by
  have hget : ms.get? name = none := (get?_eq_none_iff ms name).mpr hname
  unfold insertSection?
  simp only [Key.ofName, Bool.false_eq_true, if_false, changeAt?, fillTable?, hget,
    insertEntries?_of_distinct hes, Option.bind_eq_bind, Option.bind_some]
  rw [set_of_not_mem _ hname]

/-- The elements that sections of one name add. The last one comes first. -/
def elementsOf (name : String) (ess : List (List Entry)) : Members :=
  if ess.isEmpty then [] else [(name, .elements (ess.map (·.map Entry.item)).reverse)]

theorem insertSection?_element {ms : Members} {name : String} {es : List Entry}
    (hes : Distinct es) (hname : name ∉ ms.names) (earlier : List (List Entry)) :
    insertSection? (ms ++ elementsOf name earlier) ⟨⟨.ofName name, true⟩, es⟩ =
      some (ms ++ elementsOf name (earlier ++ [es])) := by
  unfold insertSection?
  simp only [Key.ofName, if_true, changeAt?]
  cases earlier with
  | nil =>
    have hget : get? (ms ++ elementsOf name []) name = none := by
      simpa [elementsOf] using (get?_eq_none_iff ms name).mpr hname
    simp only [addElement?, hget, insertEntries?_of_distinct hes, Option.bind_eq_bind,
      Option.bind_some]
    simp [elementsOf, set_of_not_mem _ hname]
  | cons first earlier =>
    have helements : elementsOf name (first :: earlier) =
        [(name, .elements ((first :: earlier).map (·.map Entry.item)).reverse)] := rfl
    simp only [addElement?, helements, get?_concat _ hname, insertEntries?_of_distinct hes,
      Option.bind_eq_bind, Option.bind_some]
    simp [elementsOf, set_concat _ _ hname]

theorem insertElements?_more {ms : Members} {name : String} {ess : List (List Entry)}
    (hess : ∀ es ∈ ess, Distinct es) (hname : name ∉ ms.names) (earlier : List (List Entry)) :
    (ess.map fun es => (⟨⟨.ofName name, true⟩, es⟩ : Section)).foldlM insertSection?
        (ms ++ elementsOf name earlier) =
      some (ms ++ elementsOf name (earlier ++ ess)) := by
  induction ess generalizing earlier with
  | nil => rw [List.append_nil]; rfl
  | cons es ess ih =>
    obtain ⟨hes, hess⟩ := List.forall_mem_cons.mp hess
    rw [List.map_cons, List.foldlM_cons, insertSection?_element hes hname]
    simp only [Option.bind_eq_bind, Option.bind_some]
    rw [ih hess, List.append_assoc, List.singleton_append]

theorem insertElements? {ms : Members} {name : String} {ess : List (List Entry)}
    (hess : ∀ es ∈ ess, Distinct es) (hname : name ∉ ms.names) :
    (ess.map fun es => (⟨⟨.ofName name, true⟩, es⟩ : Section)).foldlM insertSection? ms =
      some (ms ++ elementsOf name ess) := by
  have hmore := insertElements?_more hess hname []
  simpa [elementsOf] using hmore

end Members

/-! ## Elements -/

theorem elementValues_eq (later : List Value) (tables : List Members) :
    elementValues later tables =
      (tables.reverse.map fun ms => .table (memberValues ms)) ++ later := by
  induction tables generalizing later with
  | nil => rfl
  | cons ms tables ih => simp [elementValues, ih]

theorem memberValues_elementsOf (name : String) (ess : List (List Entry)) :
    memberValues (Members.elementsOf name ess) =
      if ess.isEmpty then []
      else [(name, .list (ess.map fun es => .table (es.map Entry.member)))] := by
  unfold Members.elementsOf
  split
  · rfl
  · simp [memberValues, Item.toValue, elementValues_eq, memberValues_items, Function.comp_def]

end CalendarRules.Toml
