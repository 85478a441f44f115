import CalendarRules.Rule.Report
import Mathlib.Logic.Basic

/-!
# A report has every event once

The outcomes of a report stand in the order of the events, and the tally counts each of them as one
of three kinds. A report on two lists of events is made of the reports on each.
-/

namespace CalendarRules

/-! ## What an outcome counts as -/

inductive Verdict where
  | classified
  | didNotAttend
  | unmatched
  deriving DecidableEq, Repr

def Outcome.verdict (o : Outcome) : Verdict :=
  match o.result.map Match.target with
  | some (.project _) => .classified
  | some .didNotAttend => .didNotAttend
  | none => .unmatched

theorem Outcome.verdict_eq_unmatched_iff (o : Outcome) :
    o.verdict = .unmatched ↔ o.result = none := by
  unfold verdict
  cases o.result with
  | none => simp
  | some m => cases h : m.target <;> simp [h]

theorem countP_verdicts (os : List Outcome) :
    os.countP (·.verdict = .classified) + os.countP (·.verdict = .didNotAttend) +
      os.countP (·.verdict = .unmatched) = os.length := by
  induction os with
  | nil => rfl
  | cons o os ih =>
    simp only [List.countP_cons, List.length_cons]
    cases o.verdict <;> simp <;> omega

theorem length_filter_isSome (os : List Outcome) :
    (os.filter (·.result.isSome)).length =
      os.countP (·.verdict = .classified) + os.countP (·.verdict = .didNotAttend) := by
  have hall := countP_verdicts os
  have hsplit := os.length_eq_countP_add_countP (·.result.isSome)
  have hnone : os.countP (fun o => decide ¬ o.result.isSome = true) =
      os.countP (·.verdict = .unmatched) := by
    simp [Outcome.verdict_eq_unmatched_iff]
  rw [← List.countP_eq_length_filter]
  omega

namespace Tally

def count (t : Tally) : Verdict → Nat
  | .classified => t.classified
  | .didNotAttend => t.didNotAttend
  | .unmatched => t.unmatched

theorem ext_count {t u : Tally} (h : ∀ v, t.count v = u.count v) : t = u := by
  have hc := h .classified
  have hd := h .didNotAttend
  have hu := h .unmatched
  cases t
  cases u
  simp_all [count]

theorem count_add (t : Tally) (o : Outcome) (v : Verdict) :
    (t.add o).count v = t.count v + if o.verdict = v then 1 else 0 := by
  unfold add Outcome.verdict
  cases o.result with
  | none => cases v <;> rfl
  | some m =>
    cases hm : m.target <;> cases v <;> simp [hm, count]

theorem count_foldl (os : List Outcome) (t : Tally) (v : Verdict) :
    (os.foldl add t).count v = t.count v + os.countP (·.verdict = v) := by
  induction os generalizing t with
  | nil => rfl
  | cons o os ih =>
    rw [List.foldl_cons, ih, count_add, List.countP_cons]
    simp only [decide_eq_true_eq]
    omega

end Tally

/-! ## Reports on two lists of events -/

/-- The outcome with `n` more events in front of it. -/
def Outcome.after (n : Nat) (o : Outcome) : Outcome := { o with index := o.index + n }

def Tally.plus (t u : Tally) : Tally :=
  ⟨t.classified + u.classified, t.didNotAttend + u.didNotAttend, t.unmatched + u.unmatched⟩

/-- The outcomes of the second report come after those of the first. -/
def Report.append (r s : Report) : Report :=
  ⟨r.outcomes ++ s.outcomes.map (·.after r.outcomes.length), r.tally.plus s.tally⟩

theorem Tally.count_plus (t u : Tally) (v : Verdict) :
    (t.plus u).count v = t.count v + u.count v := by
  cases v <;> rfl

namespace Classifier

theorem outcomes_apply (c : Classifier) (es : List Event) (i : Nat) :
    (c.apply es).outcomes[i]? = es[i]?.map fun e => ⟨i, e.id, c.classify e⟩ := by
  simp only [apply, List.getElem?_mapIdx]
  rfl

theorem length_outcomes (c : Classifier) (es : List Event) :
    (c.apply es).outcomes.length = es.length := by
  simp [apply]

theorem count_apply (c : Classifier) (es : List Event) (v : Verdict) :
    (c.apply es).tally.count v = (c.apply es).outcomes.countP (·.verdict = v) := by
  have hnone : Tally.count {} v = 0 := by cases v <;> rfl
  rw [apply, Tally.count_foldl, hnone, Nat.zero_add]

theorem total_apply (c : Classifier) (es : List Event) :
    (c.apply es).tally.classified + (c.apply es).tally.didNotAttend +
      (c.apply es).tally.unmatched = es.length := by
  have hc := c.count_apply es .classified
  have hd := c.count_apply es .didNotAttend
  have hu := c.count_apply es .unmatched
  have hall := countP_verdicts (c.apply es).outcomes
  rw [c.length_outcomes] at hall
  simp only [Tally.count] at hc hd hu
  omega

theorem apply_append (c : Classifier) (es es' : List Event) :
    c.apply (es ++ es') = (c.apply es).append (c.apply es') := by
  have hafter : (es'.mapIdx fun i => c.outcome (i + es.length)) =
      (es'.mapIdx c.outcome).map (·.after es.length) := by
    rw [List.mapIdx_eq_iff]
    intro i
    simp only [List.getElem?_map, List.getElem?_mapIdx, Option.map_map]
    rfl
  have houtcomes :
      (c.apply (es ++ es')).outcomes = ((c.apply es).append (c.apply es')).outcomes := by
    rw [Report.append, c.length_outcomes, apply, apply, apply, List.mapIdx_append, hafter]
  have htally : (c.apply (es ++ es')).tally = ((c.apply es).append (c.apply es')).tally := by
    refine Tally.ext_count fun v => ?_
    rw [count_apply, houtcomes, Report.append, Tally.count_plus, count_apply, count_apply,
      List.countP_append, List.countP_map]
    rfl
  exact congrArg₂ Report.mk houtcomes htally

end Classifier

end CalendarRules
