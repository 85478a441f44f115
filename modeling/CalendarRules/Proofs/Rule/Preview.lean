import CalendarRules.Proofs.Query.RoundTrip
import CalendarRules.Query.Preview
import CalendarRules.Rule.Classifier

/-!
# A preview foretells what its query does as a rule

A query is tried on events before it is saved as the query of a rule. Here the preview is compared
with the classifier of a book that holds that rule and nothing else.
-/

namespace CalendarRules

/-! ## The only rule of a book -/

namespace Rule

/-- The classifier of a book that holds the rule alone, and enabled. -/
def alone (r : Rule) : Classifier := .ofBook { rules := [{ r with enabled := true }] }

theorem alone_eq (r : Rule) : r.alone = ⟨r.compiled?.toList, r.skipped?.toList⟩ := by
  have hcompile : ({ r with enabled := true } : Rule).compile = r.compile := rfl
  unfold alone Classifier.ofBook RuleBook.ordered
  rw [List.filter_cons_of_pos rfl, List.filter_nil, List.mergeSort_singleton]
  simp only [List.filterMap_cons, List.filterMap_nil, List.append_nil, compiled?, skipped?,
    hcompile]
  cases r.compile <;> rfl

theorem skipped_alone_iff (r : Rule) (reason : SkipReason) :
    r.alone.skipped = [⟨r.id, reason⟩] ↔ r.compile = .error reason := by
  rw [alone_eq, skipped?]
  cases r.compile <;> simp

theorem compile_eq_invalidQuery_iff (r : Rule) (fault : Query.Error) :
    r.compile = .error (.invalidQuery fault) ↔ Query.parse r.query = .error fault := by
  unfold compile
  cases Query.parse r.query with
  | error => simp
  | ok q => by_cases hq : q.isEmpty = true <;> simp [hq]

theorem compile_eq_emptyQuery_iff (r : Rule) :
    r.compile = .error .emptyQuery ↔ Query.parse r.query = .ok ⟨[]⟩ := by
  unfold compile
  cases Query.parse r.query with
  | error => simp
  | ok q =>
    obtain ⟨items⟩ := q
    cases items <;> simp [Query.isEmpty]

theorem isSome_classify_alone {r : Rule} {q : Query} (h : Query.parse r.query = .ok q)
    (e : Event) : (r.alone.classify e).isSome = q.holds e := by
  rw [alone_eq, Classifier.classify, compiled?, compile, h]
  by_cases hq : q.isEmpty = true
  · simp [hq, Query.holds]
  · cases hholds : q.holds e <;> simp [hq, hholds]

theorem filter_classify_alone {r : Rule} {q : Query} (h : Query.parse r.query = .ok q)
    (events : List Event) :
    (events.filter fun e => (r.alone.classify e).isSome) = events.filter q.holds := by
  simp only [isSome_classify_alone h]

theorem classify_alone_congr {r s : Rule} (hquery : Query.parse r.query = Query.parse s.query)
    (hid : r.id = s.id) (hname : r.name = s.name) (htarget : r.target = s.target) (e : Event) :
    r.alone.classify e = s.alone.classify e := by
  rw [alone_eq, alone_eq, Classifier.classify, Classifier.classify, compiled?, compiled?, compile,
    compile, hquery, hid, hname, htarget]

end Rule

/-! ## Previews -/

namespace Preview

theorem ofText_eq_error_iff (text : String) (events : List Event) (limit : Nat)
    (fault : Query.Error) :
    ofText text events limit = .error fault ↔ Query.parse text = .error fault := by
  unfold ofText
  cases Query.parse text <;> simp [bind, Except.bind]

theorem foldl_count (limit : Nat) (events : List Event) (p : Preview) :
    events.foldl (count limit) p =
      ⟨p.query, p.total + events.length,
        p.shown ++ events.take (limit - p.shown.length)⟩ := by
  induction events generalizing p with
  | nil => simp
  | cons e events ih =>
    rw [List.foldl_cons, ih, count]
    by_cases hroom : p.shown.length < limit
    · have hone : limit - p.shown.length = limit - (p.shown.length + 1) + 1 := by omega
      simp only [if_pos hroom, List.length_append, List.length_cons, List.length_nil, hone,
        List.take_succ_cons, List.append_assoc, List.cons_append, List.nil_append, mk.injEq,
        true_and, and_true]
      omega
    · have hnone : limit - p.shown.length = 0 := by omega
      simp only [if_neg hroom, hnone, List.take_zero, List.length_cons, mk.injEq, true_and,
        and_true]
      omega

theorem ofQuery_eq (q : Query) (events : List Event) (limit : Nat) :
    ofQuery q events limit =
      ⟨q.toText, (events.filter q.holds).length, (events.filter q.holds).take limit⟩ := by
  rw [ofQuery, foldl_count]
  simp

theorem ofText_eq_ok_iff (text : String) (events : List Event) (limit : Nat) (p : Preview) :
    ofText text events limit = .ok p ↔
      ∃ q, Query.parse text = .ok q ∧
        p = ⟨q.toText, (events.filter q.holds).length, (events.filter q.holds).take limit⟩ := by
  unfold ofText
  cases Query.parse text <;> simp [bind, Except.bind, ofQuery_eq, eq_comm]

theorem ofText_query {text : String} {events : List Event} {limit : Nat} {p : Preview}
    (h : ofText text events limit = .ok p) : ofText p.query events limit = .ok p := by
  obtain ⟨q, hq, rfl⟩ := (ofText_eq_ok_iff ..).mp h
  exact (ofText_eq_ok_iff ..).mpr ⟨q, Query.parse_toText (Query.namedTerms_of_parse hq), rfl⟩

theorem total_of_empty {text : String} {events : List Event} {limit : Nat} {p : Preview}
    (h : ofText text events limit = .ok p) (hempty : Query.parse text = .ok ⟨[]⟩) :
    p.total = 0 := by
  obtain ⟨q, hq, rfl⟩ := (ofText_eq_ok_iff ..).mp h
  rw [hempty] at hq
  cases hq
  have hnone : events.filter (Query.holds ⟨[]⟩) = [] :=
    List.filter_eq_nil_iff.mpr (by simp [Query.holds, Query.isEmpty])
  rw [hnone]
  rfl

/-- A preview fails exactly with the fault that the rule is skipped for. Any other preview counts
the events that the rule classifies and shows the first of them, and neither it nor the rule
changes when the canonical text takes the place of the query. -/
theorem ofText_foretells_rule (r : Rule) (events : List Event) (limit : Nat) :
    (∀ fault, ofText r.query events limit = .error fault ↔
        r.alone.skipped = [⟨r.id, .invalidQuery fault⟩]) ∧
      (r.alone.skipped = [⟨r.id, .emptyQuery⟩] ↔ Query.parse r.query = .ok ⟨[]⟩) ∧
      ∀ p, ofText r.query events limit = .ok p →
        (p.total = (events.filter fun e => (r.alone.classify e).isSome).length ∧
          p.shown =
            (events.filter fun e => (r.alone.classify e).isSome).take (min limit p.total) ∧
          p.shown.length ≤ p.total ∧ p.hidden + p.shown.length = p.total ∧
          (∀ smaller ≤ limit, ∃ p', ofText r.query events smaller = .ok p' ∧ p'.shown <+: p.shown) ∧
          (r.alone.skipped = [⟨r.id, .emptyQuery⟩] → p.total = 0)) ∧
        ofText p.query events limit = .ok p ∧
        ∀ e, ({ r with query := p.query } : Rule).alone.classify e = r.alone.classify e := by
  have hempty : r.alone.skipped = [⟨r.id, .emptyQuery⟩] ↔ Query.parse r.query = .ok ⟨[]⟩ := by
    rw [Rule.skipped_alone_iff, Rule.compile_eq_emptyQuery_iff]
  refine ⟨?_, hempty, ?_⟩
  · intro fault
    rw [ofText_eq_error_iff, Rule.skipped_alone_iff, Rule.compile_eq_invalidQuery_iff]
  · intro p hp
    obtain ⟨q, hq, rfl⟩ := (ofText_eq_ok_iff ..).mp hp
    rw [Rule.filter_classify_alone hq]
    have hle : ((events.filter q.holds).take limit).length ≤ (events.filter q.holds).length :=
      List.length_take_le' ..
    refine ⟨⟨rfl, List.take_eq_take_min, hle, Nat.sub_add_cancel hle, ?_, ?_⟩,
      ofText_query hp, ?_⟩
    · intro smaller hsmaller
      exact ⟨_, (ofText_eq_ok_iff ..).mpr ⟨q, hq, rfl⟩, List.take_prefix_take_left hsmaller⟩
    · exact fun h => total_of_empty hp (hempty.mp h)
    · have hcanonical : Query.parse q.toText = .ok q :=
        Query.parse_toText (Query.namedTerms_of_parse hq)
      exact Rule.classify_alone_congr (hcanonical.trans hq.symm) rfl rfl rfl

/-- Two of three events match, and one of them is shown. -/
theorem ofText_foretells_rule_sync :
    let r : Rule := { id := "sync", query := "TITLE:sync", target := .didNotAttend }
    let events : List Event :=
      [{ title := some "Weekly Sync" }, { title := some "Lunch" }, { title := some "sync" }]
    let p : Preview := ⟨"title:sync", 2, [{ title := some "Weekly Sync" }]⟩
    ofText r.query events 1 = .ok p ∧
      (2 = (events.filter fun e => (r.alone.classify e).isSome).length ∧
        ofText "title:sync" events 1 = .ok p) := by
  intro r events p
  have h : ofText r.query events 1 = .ok p := by cbv
  have hp := (ofText_foretells_rule r events 1).2.2 p h
  exact ⟨h, hp.1.1, hp.2.1⟩

end Preview

end CalendarRules
