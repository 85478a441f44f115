import CalendarRules.Proofs.Json.Page
import CalendarRules.Proofs.Rule.Report
import CalendarRules.View.Report
import Mathlib.Data.List.Forall2

/-!
# The page of a report accounts for every event

A page finds the events again by the places of the outcomes. It lists them in their order, all of
them or those that something matches, under totals that do not depend on that choice. Whoever reads
the page gets back what was put on it.
-/

namespace CalendarRules

open Json

/-! ## What stands on the page -/

/-- The entry of an event at a place. What is missing is left out. -/
structure Event.ToldBy (e : Event) (i : Nat) (m : Option Match) (entry : Value) : Prop where
  index : entry.member? "index" = some (.ofNat i)
  id : entry.member? "id" = e.id.map .text
  title : entry.member? "title" = e.title.map .text
  matched : entry.member? "matched" = m.map Match.toValue

structure SkippedRule.ToldBy (s : SkippedRule) (entry : Value) : Prop where
  ruleId : entry.member? "rule_id" = some (.text s.ruleId)
  reason : entry.member? "reason" = some (.text s.reason.message)

namespace Classifier

variable (c : Classifier) (es : List Event) (matchedOnly : Bool)

/-- The entries stand for the events at these places, from the first to the last. -/
structure Lists (places : List Nat) (entries : List Value) : Prop where
  ascending : places.Pairwise (· < ·)
  mem_iff : ∀ i, i ∈ places ↔
    ∃ e, es[i]? = some e ∧ (matchedOnly = true → c.classify e ≠ none)
  told : List.Forall₂ (fun i entry => ∃ e, es[i]? = some e ∧ e.ToldBy i (c.classify e) entry)
    places entries
  length : entries.length =
    if matchedOnly then (c.apply es).tally.classified + (c.apply es).tally.didNotAttend
    else es.length

/-- The page of a report on these events. -/
structure Shows (page : Value) : Prop where
  classified : page.member? "classified" = some (.ofNat (c.apply es).tally.classified)
  didNotAttend : page.member? "did_not_attend" = some (.ofNat (c.apply es).tally.didNotAttend)
  unmatched : page.member? "unmatched" = some (.ofNat (c.apply es).tally.unmatched)
  events : ∃ places entries, page.member? "events" = some (.list entries) ∧
    c.Lists es matchedOnly places entries
  skipped : List.Forall₂ SkippedRule.ToldBy c.skipped
    (((page.member? "skipped_rules").bind Value.items?).getD [])

end Classifier

namespace ReportView

theorem toldBy_outcomeValue {v : ReportView} {i : Nat} {e : Event} (h : v.events[i]? = some e)
    (m : Option Match) : e.ToldBy i m (v.outcomeValue ⟨i, e.id, m⟩) := by
  have hevent : v.event? ⟨i, e.id, m⟩ = some e := h
  constructor <;> simp only [outcomeValue, hevent, Option.bind_some] <;>
    cases e.id <;> cases e.title <;> cases m <;> rfl

theorem toldBy_skippedValue (s : SkippedRule) : s.ToldBy (skippedValue s) := ⟨rfl, rfl⟩

theorem member?_toValue (v : ReportView) :
    v.toValue.member? "classified" = some (.ofNat v.report.tally.classified) ∧
      v.toValue.member? "did_not_attend" = some (.ofNat v.report.tally.didNotAttend) ∧
      v.toValue.member? "unmatched" = some (.ofNat v.report.tally.unmatched) ∧
      v.toValue.member? "events" = some (.list (v.visible.map v.outcomeValue)) ∧
      ((v.toValue.member? "skipped_rules").bind Value.items?).getD [] =
        v.skipped.map skippedValue := by
  unfold toValue
  cases v.skipped <;> exact ⟨rfl, rfl, rfl, rfl, rfl⟩

variable (c : Classifier) (es : List Event) (matchedOnly : Bool)

/-- The view of a report on these events. -/
def of : ReportView := ⟨c.apply es, es, c.skipped, matchedOnly⟩

theorem mem_outcomes_iff (o : Outcome) :
    o ∈ (c.apply es).outcomes ↔
      ∃ e, es[o.index]? = some e ∧ o = ⟨o.index, e.id, c.classify e⟩ := by
  rw [List.mem_iff_getElem?]
  simp only [c.outcomes_apply, Option.map_eq_some_iff]
  constructor
  · rintro ⟨i, e, he, rfl⟩
    exact ⟨e, he, rfl⟩
  · rintro ⟨e, he, ho⟩
    exact ⟨o.index, e, he, ho.symm⟩

theorem mem_visible_iff (o : Outcome) :
    o ∈ (of c es matchedOnly).visible ↔
      o ∈ (c.apply es).outcomes ∧ (matchedOnly = true → o.result ≠ none) := by
  rw [visible, List.mem_filter]
  cases matchedOnly <;> simp [of, Option.isSome_iff_ne_none]

theorem length_visible :
    (of c es matchedOnly).visible.length =
      if matchedOnly then (c.apply es).tally.classified + (c.apply es).tally.didNotAttend
      else es.length := by
  cases matchedOnly with
  | false =>
    have hall : (of c es false).visible = (c.apply es).outcomes := by simp [visible, of]
    rw [hall, c.length_outcomes]
    rfl
  | true =>
    have hmatched : (of c es true).visible = (c.apply es).outcomes.filter (·.result.isSome) := by
      simp [visible, of]
    rw [hmatched, length_filter_isSome, ← c.count_apply, ← c.count_apply]
    rfl

theorem lists_visible :
    c.Lists es matchedOnly ((of c es matchedOnly).visible.map (·.index))
      ((of c es matchedOnly).visible.map (of c es matchedOnly).outcomeValue) := by
  constructor
  · have hindices : (c.apply es).outcomes.map (·.index) = List.range es.length := by
      rw [Classifier.apply, List.mapIdx_eq_zipIdx_map, List.map_map, List.range_eq_range']
      exact List.zipIdx_map_snd 0 es
    have hsub : ((of c es matchedOnly).visible.map (·.index)).Sublist (List.range es.length) := by
      rw [← hindices]
      exact List.filter_sublist.map _
    exact List.pairwise_lt_range.sublist hsub
  · intro i
    simp only [List.mem_map, mem_visible_iff, mem_outcomes_iff]
    constructor
    · rintro ⟨o, ⟨⟨e, he, ho⟩, hmatched⟩, rfl⟩
      rw [ho] at hmatched
      exact ⟨e, he, hmatched⟩
    · rintro ⟨e, he, hmatched⟩
      exact ⟨⟨i, e.id, c.classify e⟩, ⟨⟨e, he, rfl⟩, hmatched⟩, rfl⟩
  · rw [List.forall₂_map_left_iff, List.forall₂_map_right_iff, List.forall₂_same]
    intro o ho
    obtain ⟨e, he, heq⟩ := (mem_outcomes_iff c es o).mp ((mem_visible_iff c es _ o).mp ho).1
    refine ⟨e, he, ?_⟩
    rw [heq]
    exact toldBy_outcomeValue he _
  · rw [List.length_map, length_visible]

theorem shows_toValue : c.Shows es matchedOnly (of c es matchedOnly).toValue := by
  obtain ⟨hc, hd, hu, hevents, hskipped⟩ := (of c es matchedOnly).member?_toValue
  refine ⟨hc, hd, hu, ⟨_, _, hevents, lists_visible c es matchedOnly⟩, ?_⟩
  rw [hskipped, List.forall₂_map_right_iff]
  refine List.forall₂_same.mpr ?_
  exact fun s _ => toldBy_skippedValue s

/-! ## Reading the page -/

theorem prints_target (t : Target) : t.toValue.Prints 1 := by
  refine .object fun m hm => ?_
  cases t <;> simp [Target.members] at hm
  · rcases hm with rfl | rfl <;> exact .text _
  · rw [hm]
    exact .text _

theorem prints_match (m : Match) : m.toValue.Prints 2 := by
  refine .object ?_
  simp only [List.forall_mem_append, List.forall_mem_cons]
  exact ⟨⟨.text _, .text _, forall_mem_optionalMember .text⟩, prints_target m.target, by simp⟩

theorem prints_outcome {v : ReportView} {o : Outcome} (ho : o.index ≤ maxUnsigned) :
    (v.outcomeValue o).Prints 3 := by
  refine .object ?_
  simp only [List.forall_mem_append, List.forall_mem_cons]
  exact ⟨⟨⟨.ofNat ho, forall_mem_optionalMember .text⟩, forall_mem_optionalMember .text⟩,
    forall_mem_optionalMember prints_match⟩

theorem prints_toValue (hes : es.length ≤ maxUnsigned) :
    (of c es matchedOnly).toValue.Prints 5 := by
  have htotal := c.total_apply es
  have hreport : (of c es matchedOnly).report = c.apply es := rfl
  refine .object ?_
  simp only [List.forall_mem_append, List.forall_mem_cons, Tally.members, hreport]
  refine ⟨⟨.ofNat (by omega), .ofNat (by omega), .ofNat (by omega), by simp⟩, ?_,
    forall_mem_listMember ?_⟩
  · refine .list ?_
    simp only [List.forall_mem_map]
    intro o ho
    obtain ⟨e, he, -⟩ := (mem_outcomes_iff c es o).mp ((mem_visible_iff c es _ o).mp ho).1
    have hindex := (List.getElem?_eq_some_iff.mp he).1
    exact prints_outcome (by omega)
  · refine .list ?_
    simp only [List.forall_mem_map]
    intro s _
    have hskipped : (skippedValue s).Prints 1 := by
      refine .object ?_
      simp only [List.forall_mem_cons]
      exact ⟨.text _, .text _, by simp⟩
    exact hskipped.mono (by omega)

end ReportView

/-- A report has each event once, at its place and under the verdict that it is counted as. What
its page says of it is what a reader of the page gets. -/
theorem Classifier.apply_accounts (c : Classifier) (es : List Event) :
    (c.apply es).outcomes.length = es.length ∧
      (∀ i : Nat, (c.apply es).outcomes[i]? = es[i]?.map fun e => ⟨i, e.id, c.classify e⟩) ∧
      (∀ v, (c.apply es).tally.count v = (c.apply es).outcomes.countP (·.verdict = v)) ∧
      (c.apply es).tally.classified + (c.apply es).tally.didNotAttend +
        (c.apply es).tally.unmatched = es.length ∧
      (∀ es', c.apply (es ++ es') = (c.apply es).append (c.apply es')) ∧
      ∀ matchedOnly, c.Shows es matchedOnly (ReportView.of c es matchedOnly).toValue ∧
        (es.length ≤ maxUnsigned →
          Value.ofString? (ReportView.of c es matchedOnly).toValue.page =
            some (ReportView.of c es matchedOnly).toValue) := by
  refine ⟨c.length_outcomes es, c.outcomes_apply es, c.count_apply es, c.total_apply es,
    c.apply_append es, fun matchedOnly => ⟨ReportView.shows_toValue c es matchedOnly, ?_⟩⟩
  intro hes
  have hprints := ReportView.prints_toValue c es matchedOnly hes
  exact Value.ofString?_page (hprints.mono (by decide))

theorem Classifier.apply_accounts_two :
    let c := ofBook ⟨[{ id := "dna", query := "response:declined", target := .didNotAttend },
      { id := "none", query := "", target := .didNotAttend }], []⟩
    let es : List Event := [{ id := some "a" },
      { title := some "\"Call\"", responseStatus := some "declined" }]
    es.length ≤ maxUnsigned ∧
      Value.ofString? (ReportView.of c es true).toValue.page =
        some (ReportView.of c es true).toValue := by
  intro c es
  have hlength : es.length ≤ maxUnsigned := by decide
  exact ⟨hlength, ((c.apply_accounts es).2.2.2.2.2 true).2 hlength⟩

end CalendarRules
