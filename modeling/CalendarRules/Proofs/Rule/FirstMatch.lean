import CalendarRules.Rule.Classifier

/-!
# The first rule that matches wins

A classifier sorts and compiles its book before any event is there. Here stands what it computes,
said for one event and without compiling: the least of the rules that apply, and the first of the
fingerprints when there is none.
-/

namespace CalendarRules

/-! ## Classification of one event -/

namespace Rule

/-- The first of two rules, each at a place of the book, comes before the second: for a higher
priority, then for a lower display order, then for an earlier place. -/
def Before (x y : Rule × Nat) : Prop :=
  y.1.priority < x.1.priority ∨
    (x.1.priority = y.1.priority ∧
      (x.1.displayOrder < y.1.displayOrder ∨
        (x.1.displayOrder = y.1.displayOrder ∧ x.2 < y.2)))

instance (x y : Rule × Nat) : Decidable (Before x y) := inferInstanceAs (Decidable (_ ∨ _))

/-- The rule that no other comes before. -/
def least? (placed : List (Rule × Nat)) : Option Rule :=
  (placed.find? fun x => ∀ y ∈ placed, ¬ Before y x).map (·.1)

/-- The rule is enabled, and its text is a query with items that matches the event. -/
def applies (r : Rule) (e : Event) : Bool :=
  r.enabled &&
    match Query.parse r.query with
    | .ok q => !q.isEmpty && q.holds e
    | .error _ => false

def result (r : Rule) : Match := ⟨.rule, r.id, r.name, r.target⟩

end Rule

namespace Fingerprint

/-- The fingerprint has a query, and it matches the event. -/
def applies (f : Fingerprint) (e : Event) : Bool :=
  match f.toQuery? with
  | some q => q.holds e
  | none => false

def result (f : Fingerprint) : Match :=
  ⟨.fingerprint, "fingerprint:" ++ f.projectId, f.projectName, .project f.projectId⟩

end Fingerprint

namespace RuleBook

/-- The least of the rules that apply. -/
def firstRule? (b : RuleBook) (e : Event) : Option Rule :=
  Rule.least? (b.rules.zipIdx.filter (·.1.applies e))

def firstMatch? (b : RuleBook) (e : Event) : Option Match :=
  match b.firstRule? e with
  | some r => some r.result
  | none => (b.fingerprints.find? (·.applies e)).map Fingerprint.result

end RuleBook

/-! ## The order of trial -/

namespace Rule

theorem Before.asymm {x y : Rule × Nat} (h : Before x y) : ¬ Before y x := by
  unfold Before at *
  omega

theorem Before.irrefl (x : Rule × Nat) : ¬ Before x x := fun h => h.asymm h

theorem precedes_iff (r s : Rule) :
    precedes r s = true ↔
      s.priority < r.priority ∨ (r.priority = s.priority ∧ r.displayOrder ≤ s.displayOrder) := by
  simp [precedes]

theorem precedes_trans (r s t : Rule) (hrs : precedes r s = true) (hst : precedes s t = true) :
    precedes r t = true := by
  rw [precedes_iff] at *
  omega

theorem precedes_total (r s : Rule) : (precedes r s || precedes s r) = true := by
  rw [Bool.or_eq_true, precedes_iff, precedes_iff]
  omega

theorem before_of_precedes {x y : Rule × Nat} (hplace : x.2 < y.2)
    (h : precedes x.1 y.1 = true) : Before x y := by
  rw [precedes_iff] at h
  unfold Before
  omega

theorem before_of_not_precedes {x y : Rule × Nat} (h : precedes x.1 y.1 = false) :
    Before y x := by
  rw [← Bool.not_eq_true, precedes_iff] at h
  unfold Before
  omega

theorem mergeSort_cons (r : Rule) (rs : List Rule) :
    ∃ front back, (r :: rs).mergeSort precedes = front ++ r :: back ∧
      rs.mergeSort precedes = front ++ back ∧ (∀ s ∈ front, precedes r s = false) ∧
        ∀ s ∈ back, precedes r s = true := by
  obtain ⟨front, back, hcons, hrest, hfront⟩ :=
    List.mergeSort_cons precedes_trans precedes_total r rs
  have hsorted := List.pairwise_mergeSort precedes_trans precedes_total (r :: rs)
  rw [hcons, List.pairwise_append, List.pairwise_cons] at hsorted
  exact ⟨front, back, hcons, hrest, by simpa using hfront, hsorted.2.1.1⟩

theorem exists_sorted (placed : List (Rule × Nat)) (hplaced : placed.Pairwise (·.2 < ·.2)) :
    ∃ sorted : List (Rule × Nat), sorted.Perm placed ∧ sorted.Pairwise Before ∧
      sorted.map (·.1) = (placed.map (·.1)).mergeSort precedes := by
  induction placed with
  | nil => exact ⟨[], .nil, .nil, by simp⟩
  | cons x placed ih =>
    obtain ⟨hlater, hrest⟩ := List.pairwise_cons.mp hplaced
    obtain ⟨sorted, hperm, hsorted, hmap⟩ := ih hrest
    obtain ⟨front, back, hcons, hsplit, hfront, hback⟩ := mergeSort_cons x.1 (placed.map (·.1))
    rw [hsplit] at hmap
    obtain ⟨front, back, rfl, rfl, rfl⟩ := List.map_eq_append_iff.mp hmap
    obtain ⟨hpf, hpb, hacross⟩ := List.pairwise_append.mp hsorted
    -- The places grow along the list, so they tell apart what the sort leaves in its order.
    have hxback (y : Rule × Nat) (hy : y ∈ back) : Before x y := by
      have hplace := hlater y (hperm.mem_iff.mp (List.mem_append_right front hy))
      exact before_of_precedes hplace (hback y.1 (List.mem_map_of_mem hy))
    have hxfront (y : Rule × Nat) (hy : y ∈ front) : Before y x :=
      before_of_not_precedes (hfront y.1 (List.mem_map_of_mem hy))
    refine ⟨front ++ x :: back, List.perm_middle.trans (hperm.cons x), ?_, ?_⟩
    · rw [List.pairwise_append, List.pairwise_cons]
      refine ⟨hpf, ⟨hxback, hpb⟩, ?_⟩
      intro y hy z hz
      rcases List.mem_cons.mp hz with rfl | hz
      · exact hxfront y hy
      · exact hacross y hy z hz
    · rw [List.map_cons, hcons, List.map_append, List.map_cons]

theorem least?_eq_some {placed : List (Rule × Nat)} {x : Rule × Nat} (hx : x ∈ placed)
    (hleast : ∀ y ∈ placed, y = x ∨ Before x y) : least? placed = some x.1 := by
  unfold least?
  cases hfound : placed.find? fun x => ∀ y ∈ placed, ¬ Before y x with
  | none =>
    refine absurd ?_ (List.find?_eq_none.mp hfound x hx)
    rw [decide_eq_true_eq]
    intro y hy
    rcases hleast y hy with rfl | hxy
    · exact Before.irrefl y
    · exact hxy.asymm
  | some z =>
    have hz := List.find?_some hfound
    rw [decide_eq_true_eq] at hz
    rcases hleast z (List.mem_of_find?_eq_some hfound) with rfl | hxz
    · rfl
    · exact absurd hxz (hz x hx)

theorem find?_mergeSort (p : Rule → Bool) (placed : List (Rule × Nat))
    (hplaced : placed.Pairwise (·.2 < ·.2)) :
    ((placed.map (·.1)).mergeSort precedes).find? p = least? (placed.filter fun x => p x.1) := by
  obtain ⟨sorted, hperm, hsorted, hmap⟩ := exists_sorted placed hplaced
  rw [← hmap, List.find?_map]
  cases hfound : sorted.find? (p ∘ (·.1)) with
  | none =>
    have hnone : (placed.filter fun x => p x.1) = [] := by
      rw [List.filter_eq_nil_iff]
      intro x hx
      exact List.find?_eq_none.mp hfound x (hperm.mem_iff.mpr hx)
    rw [hnone]
    rfl
  | some x =>
    obtain ⟨hpx, front, back, rfl, hfront⟩ := List.find?_eq_some_iff_append.mp hfound
    have hx : x ∈ placed := hperm.mem_iff.mp (List.mem_append_right front List.mem_cons_self)
    refine (least?_eq_some (List.mem_filter.mpr ⟨hx, hpx⟩) ?_).symm
    intro y hy
    obtain ⟨hy, hpy⟩ := List.mem_filter.mp hy
    -- What passes the test is not in front of `x`, and the sort tells what stands behind it.
    rcases List.mem_append.mp (hperm.mem_iff.mpr hy) with hyfront | hyback
    · have hnot := hfront y hyfront
      rw [hpy] at hnot
      cases hnot
    · have hxback := (List.pairwise_cons.mp (List.pairwise_append.mp hsorted).2.1).1
      exact (List.mem_cons.mp hyback).imp_right (hxback y)

end Rule

/-! ## Compiled rules -/

theorem pairwise_zipIdx {α : Type} (l : List α) : l.zipIdx.Pairwise (·.2 < ·.2) := by
  apply List.pairwise_map.mp
  rw [List.zipIdx_map_snd]
  exact List.pairwise_lt_range'

theorem map_filter_zipIdx {α : Type} (p : α → Bool) (l : List α) :
    (l.zipIdx.filter fun x => p x.1).map (·.1) = l.filter p := by
  have hl : l.zipIdx.map (·.1) = l := List.zipIdx_map_fst 0 l
  conv => rhs; rw [← hl, List.filter_map]
  rfl

theorem RuleBook.ordered_eq (b : RuleBook) :
    b.ordered = ((b.rules.zipIdx.filter (·.1.enabled)).map (·.1)).mergeSort Rule.precedes := by
  rw [ordered, map_filter_zipIdx (fun r : Rule => r.enabled)]

theorem find?_compiled {α : Type} {compile : α → Option CompiledRule} {result : α → Match}
    (hresult : ∀ x c, compile x = some c → c.result = result x) (xs : List α) (e : Event) :
    ((xs.filterMap compile).find? (·.query.holds e)).map (·.result) =
      (xs.find? fun x => (compile x).any (·.query.holds e)).map result := by
  rw [List.find?_filterMap]
  cases hx : xs.find? fun x => (compile x).any (·.query.holds e) with
  | none => rfl
  | some x =>
    cases hc : compile x with
    | none =>
      have hany := List.find?_some hx
      rw [hc] at hany
      cases hany
    | some c => simp [hc, hresult x c hc]

theorem Rule.applies_eq (r : Rule) (e : Event) :
    r.applies e = (r.compiled?.any (·.query.holds e) && r.enabled) := by
  unfold applies compiled? compile
  rw [Bool.and_comm]
  cases Query.parse r.query with
  | error fault => rfl
  | ok q => by_cases hq : q.isEmpty = true <;> simp [hq]

theorem Rule.result_of_compiled? (r : Rule) (c : CompiledRule) (h : r.compiled? = some c) :
    c.result = r.result := by
  unfold compiled? compile at h
  cases hq : Query.parse r.query with
  | error fault => simp [hq] at h
  | ok q =>
    simp only [hq] at h
    split at h
    · rename_i hc
      split at hc
      · cases hc
      · cases hc; cases h; rfl
    · cases h

theorem Fingerprint.applies_eq (f : Fingerprint) (e : Event) :
    f.applies e = f.compiled?.any (·.query.holds e) := by
  unfold applies compiled?
  cases f.toQuery? <;> rfl

theorem Fingerprint.result_of_compiled? (f : Fingerprint) (c : CompiledRule)
    (h : f.compiled? = some c) : c.result = f.result := by
  obtain ⟨q, -, rfl⟩ := Option.map_eq_some_iff.mp h
  rfl

theorem RuleBook.find?_ordered (b : RuleBook) (e : Event) :
    b.ordered.find? (fun r => r.compiled?.any (·.query.holds e)) = b.firstRule? e := by
  rw [b.ordered_eq, Rule.find?_mergeSort _ _ ((pairwise_zipIdx b.rules).filter _),
    List.filter_filter]
  simp only [← Rule.applies_eq]
  rfl

/-! ## The theorem -/

/-- A classifier gives each event the match of the first rule that applies to it, and of the first
fingerprint that does when no rule applies. -/
theorem classify_eq_firstMatch? (b : RuleBook) (e : Event) :
    (Classifier.ofBook b).classify e = b.firstMatch? e := by
  unfold Classifier.classify Classifier.ofBook RuleBook.firstMatch?
  rw [List.find?_append, Option.map_or, find?_compiled Rule.result_of_compiled?,
    find?_compiled Fingerprint.result_of_compiled?, b.find?_ordered]
  simp only [← Fingerprint.applies_eq]
  cases b.firstRule? e <;> rfl

end CalendarRules
