import CalendarRules.Proofs.Rule.FirstMatch
import CalendarRules.Proofs.Rule.Preview

/-!
# Every rule of a book is accounted for

An enabled rule is used or reported as skipped, in its place in the order of trial. What is not used
could as well not be in the book.
-/

namespace CalendarRules

open Text

/-! ## What becomes of a rule -/

namespace Rule

/-- The text of the rule is a query with items. -/
def IsUsable (r : Rule) : Prop := ∃ q, Query.parse r.query = .ok q ∧ q.items ≠ []

/-- A rule at a place of the book is compiled to its query and its match. -/
def Compiles (x : Rule × Nat) (c : CompiledRule) : Prop :=
  Query.parse x.1.query = .ok c.query ∧ c.query.items ≠ [] ∧ c.result = x.1.result

/-- The report names the rule and says what is wrong with its text. -/
def Skips (x : Rule × Nat) (s : SkippedRule) : Prop :=
  s.ruleId = x.1.id ∧
    (∀ fault, s.reason = .invalidQuery fault ↔ Query.parse x.1.query = .error fault) ∧
      (s.reason = .emptyQuery ↔ Query.parse x.1.query = .ok ⟨[]⟩)

theorem compiled?_eq_some {r : Rule} {c : CompiledRule} (h : r.compiled? = some c) :
    Query.parse r.query = .ok c.query ∧ c.query.items ≠ [] := by
  unfold compiled? compile at h
  cases hq : Query.parse r.query with
  | error fault => simp [hq] at h
  | ok q =>
    obtain ⟨items⟩ := q
    cases items with
    | nil => simp [hq, Query.isEmpty] at h
    | cons n ns =>
      simp only [hq, Query.isEmpty, List.isEmpty_cons, Bool.false_eq_true, if_false,
        Option.some.injEq] at h
      subst h
      exact ⟨rfl, by simp⟩

theorem isSome_compiled?_iff (r : Rule) : r.compiled?.isSome = true ↔ r.IsUsable := by
  constructor
  · intro h
    obtain ⟨c, hc⟩ := Option.isSome_iff_exists.mp h
    exact ⟨c.query, compiled?_eq_some hc⟩
  · rintro ⟨⟨items⟩, hq, hne⟩
    cases items with
    | nil => exact absurd rfl hne
    | cons n ns => simp [compiled?, compile, hq, Query.isEmpty]

theorem compiles_of_compiled? {x : Rule × Nat} {c : CompiledRule} (h : x.1.compiled? = some c) :
    Compiles x c := by
  obtain ⟨hquery, hne⟩ := compiled?_eq_some h
  exact ⟨hquery, hne, x.1.result_of_compiled? c h⟩

theorem skips_of_skipped? {x : Rule × Nat} {s : SkippedRule} (h : x.1.skipped? = some s) :
    Skips x s := by
  unfold skipped? at h
  cases hc : x.1.compile with
  | ok c => simp [hc] at h
  | error reason =>
    simp only [hc, Option.some.injEq] at h
    subst h
    refine ⟨rfl, fun fault => ?_, ?_⟩
    · rw [← compile_eq_invalidQuery_iff, hc, Except.error.injEq]
    · rw [← compile_eq_emptyQuery_iff, hc, Except.error.injEq]

theorem isSome_skipped? (r : Rule) : r.skipped?.isSome = !r.compiled?.isSome := by
  unfold skipped? compiled?
  cases r.compile <;> rfl

theorem mergeSort_of_before {placed sorted : List (Rule × Nat)}
    (hplaced : placed.Pairwise (·.2 < ·.2)) (hperm : sorted.Perm placed)
    (hsorted : sorted.Pairwise Before) :
    (placed.map (·.1)).mergeSort precedes = sorted.map (·.1) := by
  obtain ⟨sorted', hperm', hsorted', hmap⟩ := exists_sorted placed hplaced
  rw [← hmap, List.Perm.eq_of_pairwise (fun x y _ _ hxy hyx => absurd hyx hxy.asymm) hsorted'
    hsorted (hperm'.trans hperm.symm)]

theorem filter_mergeSort (p : Rule → Bool) (rs : List Rule) :
    (rs.mergeSort precedes).filter p = (rs.filter p).mergeSort precedes := by
  have hplaced := pairwise_zipIdx rs
  obtain ⟨all, hperm, hsorted, hall⟩ := exists_sorted rs.zipIdx hplaced
  have hkept := mergeSort_of_before (hplaced.filter fun x => p x.1) (hperm.filter _)
    (hsorted.filter _)
  have hrules : rs.zipIdx.map (·.1) = rs := List.zipIdx_map_fst 0 rs
  rw [hrules] at hall
  rw [map_filter_zipIdx] at hkept
  rw [← hall, hkept, List.filter_map]
  rfl

end Rule

/-! ## What becomes of a fingerprint -/

namespace Fingerprint

/-- One of the values is not blank. -/
def hasAttribute (f : Fingerprint) : Bool :=
  (f.domains ++ f.emails ++ f.keywords).any fun value => !(trim value).isEmpty

/-- A fingerprint is compiled to its query and its match. -/
def Compiles (f : Fingerprint) (c : CompiledRule) : Prop :=
  f.toQuery? = some c.query ∧ c.result = f.result

theorem termsFor_eq_nil_iff (property : String) (values : List String) :
    termsFor property values = [] ↔ ∀ value ∈ values, trim value = "" := by
  simp [termsFor]

theorem members_eq_nil_iff (f : Fingerprint) : f.members = [] ↔ f.hasAttribute = false := by
  simp [members, termsFor_eq_nil_iff, hasAttribute]

theorem isSome_compiled? (f : Fingerprint) : f.compiled?.isSome = f.hasAttribute := by
  unfold compiled? toQuery?
  cases hattribute : f.hasAttribute with
  | false => simp [(members_eq_nil_iff f).mpr hattribute]
  | true =>
    have hne : f.members ≠ [] := by
      rw [ne_eq, members_eq_nil_iff, hattribute]
      decide
    simp [hne]

theorem compiles_of_compiled? {f : Fingerprint} {c : CompiledRule} (h : f.compiled? = some c) :
    Compiles f c := by
  obtain ⟨q, hq, rfl⟩ := Option.map_eq_some_iff.mp h
  exact ⟨hq, rfl⟩

end Fingerprint

/-! ## The account -/

theorem forall₂_filterMap {α β : Type} {f : α → Option β} {R : α → β → Prop}
    (hR : ∀ a b, f a = some b → R a b) (l : List α) :
    List.Forall₂ R (l.filter fun a => (f a).isSome) (l.filterMap f) := by
  induction l with
  | nil => exact .nil
  | cons a l ih =>
    cases hf : f a with
    | none => simpa [hf] using ih
    | some b => simpa [hf] using And.intro (hR a b hf) ih

/-- A classifier uses these rules of a book and leaves out those, each told with its place. -/
structure Classifier.Accounts (c : Classifier) (b : RuleBook) (used left : List (Rule × Nat)) :
    Prop where
  /-- An enabled rule is in one of the lists, once, and no other rule is in any. -/
  each : (used ++ left).Perm (b.rules.zipIdx.filter (·.1.enabled))
  left_iff : ∀ x ∈ b.rules.zipIdx, x ∈ left ↔ x.1.enabled = true ∧ ¬ x.1.IsUsable
  used_ordered : used.Pairwise Rule.Before
  left_ordered : left.Pairwise Rule.Before
  skipped : List.Forall₂ Rule.Skips left c.skipped
  /-- What is compiled for the fingerprints comes after the rules. -/
  rules : ∃ ofRules ofFingerprints, c.rules = ofRules ++ ofFingerprints ∧
    List.Forall₂ Rule.Compiles used ofRules ∧
      List.Forall₂ Fingerprint.Compiles (b.fingerprints.filter (·.hasAttribute)) ofFingerprints

namespace RuleBook

theorem exists_ordered (b : RuleBook) :
    ∃ sorted : List (Rule × Nat), sorted.Perm (b.rules.zipIdx.filter (·.1.enabled)) ∧
      sorted.Pairwise Rule.Before ∧ sorted.map (·.1) = b.ordered := by
  rw [b.ordered_eq]
  exact Rule.exists_sorted _ ((pairwise_zipIdx b.rules).filter _)

theorem exists_accounts (b : RuleBook) :
    ∃ used left, (Classifier.ofBook b).Accounts b used left := by
  obtain ⟨sorted, hperm, hsorted, hordered⟩ := b.exists_ordered
  refine ⟨sorted.filter fun x => x.1.compiled?.isSome,
    sorted.filter fun x => x.1.skipped?.isSome, ?_⟩
  constructor
  · simp only [Rule.isSome_skipped?]
    exact (List.filter_append_perm _ sorted).trans hperm
  · intro x hx
    rw [List.mem_filter, hperm.mem_iff, List.mem_filter, Rule.isSome_skipped?, Bool.not_eq_true',
      ← Bool.not_eq_true, Rule.isSome_compiled?_iff]
    exact and_congr_left' (and_iff_right hx)
  · exact hsorted.filter _
  · exact hsorted.filter _
  · have hskipped : (Classifier.ofBook b).skipped = sorted.filterMap fun x => x.1.skipped? := by
      unfold Classifier.ofBook
      simp only [← hordered, List.filterMap_map]
      rfl
    rw [hskipped]
    exact forall₂_filterMap (fun x s => Rule.skips_of_skipped?) sorted
  · refine ⟨sorted.filterMap fun x => x.1.compiled?, b.fingerprints.filterMap Fingerprint.compiled?,
      ?_, forall₂_filterMap (fun x c => Rule.compiles_of_compiled?) sorted, ?_⟩
    · rw [Classifier.ofBook, ← hordered, List.filterMap_map]
      rfl
    · simp only [← Fingerprint.isSome_compiled?]
      exact forall₂_filterMap (fun f c => Fingerprint.compiles_of_compiled?) b.fingerprints

end RuleBook

namespace Classifier.Accounts

variable {c : Classifier} {b : RuleBook} {used left : List (Rule × Nat)}

theorem length_add (h : c.Accounts b used left) :
    used.length + left.length = (b.rules.filter (·.enabled)).length := by
  rw [← List.length_append, h.each.length_eq, ← map_filter_zipIdx (fun r : Rule => r.enabled),
    List.length_map]

theorem size_add (h : c.Accounts b used left) :
    c.size + c.skipped.length =
      (b.rules.filter (·.enabled)).length + (b.fingerprints.filter (·.hasAttribute)).length := by
  obtain ⟨ofRules, ofFingerprints, hrules, hused, hfingerprints⟩ := h.rules
  rw [size, hrules, List.length_append, ← hused.length_eq, ← h.skipped.length_eq,
    ← hfingerprints.length_eq, ← h.length_add]
  omega

theorem skipped_le (h : c.Accounts b used left) :
    c.skipped.length ≤ (b.rules.filter (·.enabled)).length := by
  rw [← h.skipped.length_eq, ← h.length_add]
  exact Nat.le_add_left ..

end Classifier.Accounts

/-! ## What could as well not be there -/

namespace RuleBook

/-- The second book has one more rule that is never tried, or one more fingerprint that asks for
nothing. -/
inductive Idle : RuleBook → RuleBook → Prop
  | rule {r : Rule} (front back : List Rule) (fs : List Fingerprint)
    (h : r.enabled = false ∨ ¬ r.IsUsable) : Idle ⟨front ++ back, fs⟩ ⟨front ++ r :: back, fs⟩
  | fingerprint {f : Fingerprint} (rs : List Rule) (front back : List Fingerprint)
    (h : f.hasAttribute = false) : Idle ⟨rs, front ++ back⟩ ⟨rs, front ++ f :: back⟩

theorem filterMap_ordered (b : RuleBook) :
    b.ordered.filterMap Rule.compiled? =
      ((b.rules.filter fun r => r.compiled?.isSome && r.enabled).mergeSort
        Rule.precedes).filterMap Rule.compiled? := by
  rw [← List.filter_filter, ← Rule.filter_mergeSort, List.filterMap_filter]
  refine List.filterMap_congr fun r _ => ?_
  cases r.compiled? <;> rfl

theorem rules_of_idle {b b' : RuleBook} (h : Idle b b') :
    (Classifier.ofBook b).rules = (Classifier.ofBook b').rules := by
  unfold Classifier.ofBook
  cases h with
  | @rule r front back fs h =>
    have hnone : (r.compiled?.isSome && r.enabled) = false := by
      rw [← Bool.not_eq_true, Bool.and_eq_true, Rule.isSome_compiled?_iff]
      rintro ⟨husable, henabled⟩
      rcases h with hdisabled | hunusable
      · rw [henabled] at hdisabled
        cases hdisabled
      · exact hunusable husable
    simp only [filterMap_ordered, List.filter_append, List.filter_cons, hnone, Bool.false_eq_true,
      if_false]
  | @fingerprint f rs front back h =>
    have hnone : f.compiled? = none := by
      rw [← Option.not_isSome_iff_eq_none, f.isSome_compiled?, h]
      decide
    simp only [List.filterMap_append, List.filterMap_cons_none hnone]
    rfl

theorem rules_of_eqvGen {b b' : RuleBook} (h : Relation.EqvGen Idle b b') :
    (Classifier.ofBook b).rules = (Classifier.ofBook b').rules := by
  induction h with
  | rel b b' h => exact rules_of_idle h
  | refl b => rfl
  | symm b b' h ih => exact ih.symm
  | trans b b' b'' h h' ih ih' => exact ih.trans ih'

/-! ## The theorem -/

/-- A classifier accounts for every rule of its book, and its size follows from that. Rules and
fingerprints that are idle may come and go: no event is classified in another way. -/
theorem ofBook_accounts (b : RuleBook) :
    (∃ used left, (Classifier.ofBook b).Accounts b used left) ∧
      (Classifier.ofBook b).skipped.length ≤ (b.rules.filter (·.enabled)).length ∧
      (Classifier.ofBook b).size =
        (b.rules.filter (·.enabled)).length - (Classifier.ofBook b).skipped.length +
          (b.fingerprints.filter (·.hasAttribute)).length ∧
      ∀ b', Relation.EqvGen Idle b b' →
        ∀ e, (Classifier.ofBook b).classify e = (Classifier.ofBook b').classify e := by
  obtain ⟨used, left, h⟩ := b.exists_accounts
  have hsize := h.size_add
  have hle := h.skipped_le
  refine ⟨⟨used, left, h⟩, hle, by omega, fun b' hidle e => ?_⟩
  rw [Classifier.classify, Classifier.classify, rules_of_eqvGen hidle]

/-- A disabled rule, one with a fault and a blank fingerprint, all in front of the rule that is
used. -/
theorem ofBook_accounts_idle :
    let used : Rule := { id := "used", query := "title:sync", target := .didNotAttend }
    let off : Rule := { used with id := "off", priority := 9, enabled := false }
    let bad : Rule := { used with id := "bad", query := "(title:sync", priority := 5 }
    let blank : Fingerprint := { projectId := "p", domains := [""], keywords := [" "] }
    Relation.EqvGen Idle ⟨[used], []⟩ ⟨[off, bad, used], [blank]⟩ ∧
      ∀ e, (Classifier.ofBook ⟨[used], []⟩).classify e =
        (Classifier.ofBook ⟨[off, bad, used], [blank]⟩).classify e := by
  intro used off bad blank
  have hoff : Idle ⟨[used], []⟩ ⟨[off, used], []⟩ := .rule [] [used] [] (.inl rfl)
  have hunusable : ¬ bad.IsUsable := by
    have hfault : Query.parse bad.query = .error (.unclosedParenthesis 0) := by cbv
    rintro ⟨q, hq, -⟩
    rw [hfault] at hq
    cases hq
  have hbad : Idle ⟨[off, used], []⟩ ⟨[off, bad, used], []⟩ :=
    .rule [off] [used] [] (.inr hunusable)
  have hblank : Idle ⟨[off, bad, used], []⟩ ⟨[off, bad, used], [blank]⟩ :=
    .fingerprint _ [] [] (by decide)
  have hidle : Relation.EqvGen Idle ⟨[used], []⟩ ⟨[off, bad, used], [blank]⟩ :=
    .trans _ _ _ (.rel _ _ hoff) (.trans _ _ _ (.rel _ _ hbad) (.rel _ _ hblank))
  exact ⟨hidle, (ofBook_accounts ⟨[used], []⟩).2.2.2 _ hidle⟩

end RuleBook

end CalendarRules
