import CalendarRules.Proofs.Query.Catalog
import CalendarRules.Proofs.Text.Distance

/-!
# The suggestion for a name that is no property

What is suggested is the property that the fewest edits of the name lead to, if there are no more
than three, and of several such properties the first in the catalog.
-/

namespace CalendarRules

open Text

/-! ## The first of the least -/

/-- Nothing in the list has a smaller key, and nothing before it the same. -/
def IsFirstLeast {α : Type} (key : α → Nat) (l : List α) (a : α) : Prop :=
  ∃ before after, l = before ++ a :: after ∧ (∀ b ∈ before, key a < key b) ∧
    ∀ b ∈ after, key a ≤ key b

theorem isFirstLeast_foldl {α : Type} (key : α → Nat) (a : α) (l : List α) :
    IsFirstLeast key (a :: l) (l.foldl (fun best b => if key b < key best then b else best) a) := by
  induction l using List.reverseRecOn with
  | nil => exact ⟨[], [], rfl, by simp, by simp⟩
  | append_singleton l b ih =>
    rw [List.foldl_append, List.foldl_cons, List.foldl_nil]
    obtain ⟨before, after, hl, hbefore, hafter⟩ := ih
    rw [← List.cons_append, hl]
    split
    case isTrue hlt =>
      -- It is smaller than all before it, since the best so far is no greater than any of them.
      refine ⟨_, [], rfl, fun c hc => ?_, by simp⟩
      rcases List.mem_append.mp hc with hc | hc
      · exact Nat.lt_trans hlt (hbefore c hc)
      · rcases List.mem_cons.mp hc with rfl | hc
        · exact hlt
        · exact Nat.lt_of_lt_of_le hlt (hafter c hc)
    case isFalse hge =>
      refine ⟨before, after ++ [b], by simp, hbefore, fun c hc => ?_⟩
      rcases List.mem_append.mp hc with hc | hc
      · exact hafter c hc
      · rw [List.mem_singleton.mp hc]
        exact Nat.le_of_not_lt hge

section FirstLeast

variable {α : Type} {key : α → Nat} {l : List α} {a : α}

theorem IsFirstLeast.le (h : IsFirstLeast key l a) {b : α} (hb : b ∈ l) : key a ≤ key b := by
  obtain ⟨before, after, rfl, hbefore, hafter⟩ := h
  rcases List.mem_append.mp hb with hb | hb
  · exact Nat.le_of_lt (hbefore b hb)
  · rcases List.mem_cons.mp hb with rfl | hb
    · exact Nat.le_refl _
    · exact hafter b hb

theorem IsFirstLeast.idxOf_le [BEq α] [LawfulBEq α] (h : IsFirstLeast key l a) {b : α}
    (hb : key b = key a) : l.idxOf a ≤ l.idxOf b := by
  obtain ⟨before, after, rfl, hbefore, -⟩ := h
  have hnot {c : α} (hc : key c = key a) : c ∉ before :=
    fun hmem => absurd (hbefore c hmem) (by omega)
  rw [List.idxOf_append_of_notMem (hnot rfl), List.idxOf_append_of_notMem (hnot hb),
    List.idxOf_cons_self]
  omega

end FirstLeast

namespace Property

theorem mem_all (p : Property) : p ∈ all := by cases p <;> decide

theorem isFirstLeast_nearest (word : String) :
    IsFirstLeast (fun p : Property => distance word p.name) all (nearest word) := by
  have h := isFirstLeast_foldl (fun p : Property => distance word p.name) title all.tail
  have hnearest : nearest word = all.tail.foldl
      (fun best p => if distance word p.name < distance word best.name then p else best) title := by
    rw [nearest, all, List.foldl_cons, if_neg (Nat.lt_irrefl _), List.tail_cons]
  rwa [← hnearest] at h

/-! ## Distances from a name -/

theorem distance_names_ne_one (p q : Property) : distance p.name q.name ≠ 1 := by
  intro h
  have hedits : Edits 1 p.name.toList q.name.toList := h ▸ (isLeast_distanceChars _ _).1
  -- Only names of about the same length need to be compared.
  have hnames : ∀ p ∈ all, ∀ q ∈ all, p.name.toList.length ≤ q.name.toList.length + 1 →
      q.name.toList.length ≤ p.name.toList.length + 1 → distance p.name q.name ≠ 1 := by
    decide +kernel
  exact hnames p p.mem_all q q.mem_all hedits.length_le.1 hedits.length_le.2 h

/-! ## What is suggested -/

/-- The property is meant by a word that names none: it is near, none is nearer, and none that is
equally near comes before it. -/
structure IsMeantBy (p : Property) (word : String) : Prop where
  unknown : ∀ q : Property, q.name ≠ word
  near : 0 < distance word p.name ∧ distance word p.name ≤ 3
  least : ∀ q : Property, distance word p.name ≤ distance word q.name
  first : ∀ q : Property, distance word q.name = distance word p.name → all.idxOf p ≤ all.idxOf q

theorem IsMeantBy.unique {p q : Property} {word : String} (hp : p.IsMeantBy word)
    (hq : q.IsMeantBy word) : p = q := by
  have hsame : distance word p.name = distance word q.name :=
    Nat.le_antisymm (hp.least q) (hq.least p)
  have hplace := Nat.le_antisymm (hp.first q hsame.symm) (hq.first p hsame)
  exact (List.idxOf_inj p.mem_all).mp hplace

theorem isMeantBy_nearest {word : String} (hpos : 0 < distance word (nearest word).name)
    (hle : distance word (nearest word).name ≤ 3) : (nearest word).IsMeantBy word := by
  have hfirst := isFirstLeast_nearest word
  refine ⟨?_, ⟨hpos, hle⟩, fun q => hfirst.le q.mem_all, fun q => hfirst.idxOf_le⟩
  rintro q rfl
  have hzero := hfirst.le q.mem_all
  rw [(distance_eq_zero_iff _ _).mpr rfl] at hzero
  omega

theorem suggest?_eq (name : String) :
    let best := nearest (lower name)
    suggest? name =
      if 0 < distance (lower name) best.name ∧ distance (lower name) best.name ≤ maxDistance then
        some best
      else none := by
  simp only [suggest?, Bool.and_eq_true, decide_eq_true_eq]

theorem suggest?_eq_some_iff (name : String) (p : Property) :
    suggest? name = some p ↔ p.IsMeantBy (lower name) := by
  have hfirst := isFirstLeast_nearest (lower name)
  rw [suggest?_eq]
  constructor
  · intro h
    split at h
    · rename_i hnear
      rw [← Option.some.inj h]
      exact isMeantBy_nearest hnear.1 hnear.2
    · cases h
  · intro h
    have hle := hfirst.le p.mem_all
    have hsame : distance (lower name) (nearest (lower name)).name = distance (lower name) p.name :=
      Nat.le_antisymm hle (h.least _)
    have hnear : 0 < distance (lower name) p.name ∧ distance (lower name) p.name ≤ maxDistance :=
      h.near
    rw [← hsame] at hnear
    rw [if_pos hnear, (isMeantBy_nearest hnear.1 hnear.2).unique h]

/-- Distances are least numbers of edits. A name gets the property that is meant by it in lower
case, and no suggestion if there is none. One edit away from a property there is always one. -/
theorem suggest?_nearest :
    (∀ a b : String, IsLeast {n | Edits n a.toList b.toList} (distance a b)) ∧
      (∀ name p, suggest? name = some p ↔ p.IsMeantBy (lower name)) ∧
      (∀ name, suggest? name = none ↔ ∀ p : Property, ¬ p.IsMeantBy (lower name)) ∧
      ∀ name (p : Property), distance (lower name) p.name = 1 →
        ∃ q, suggest? name = some q ∧ distance (lower name) q.name = 1 := by
  refine ⟨fun a b => isLeast_distanceChars a.toList b.toList, suggest?_eq_some_iff, ?_, ?_⟩
  · intro name
    simp only [Option.eq_none_iff_forall_ne_some, ne_eq, suggest?_eq_some_iff]
  · intro name p hp
    have hle := (isFirstLeast_nearest (lower name)).le p.mem_all
    have hpos : distance (lower name) (nearest (lower name)).name ≠ 0 := by
      intro hzero
      rw [(distance_eq_zero_iff _ _).mp hzero] at hp
      exact distance_names_ne_one _ p hp
    have hmeant : (nearest (lower name)).IsMeantBy (lower name) :=
      isMeantBy_nearest (by omega) (by omega)
    exact ⟨_, (suggest?_eq_some_iff name _).mpr hmeant, by omega⟩

/-- A letter too many, in capitals. -/
theorem suggest?_nearest_colour :
    distance (lower "COLOUR") color.name = 1 ∧ color.IsMeantBy (lower "COLOUR") ∧
      ∃ q, suggest? "COLOUR" = some q ∧ distance (lower "COLOUR") q.name = 1 := by
  have hone : distance (lower "COLOUR") color.name = 1 := by decide +kernel
  have hcolour : suggest? "COLOUR" = some color := by decide +kernel
  obtain ⟨-, hsuggest, -, hnear⟩ := suggest?_nearest
  exact ⟨hone, (hsuggest "COLOUR" color).mp hcolour, hnear "COLOUR" color hone⟩

end Property

end CalendarRules
