import CalendarRules.Query.Matches

/-!
# Queries see an event through their terms

Nothing in a query says "not". So a query that matches an event also matches every event of which
the same terms hold, and it does not tell events apart that none of its terms tells apart. And what
holds has a term that holds.
-/

namespace CalendarRules

variable {e e' : Event}

namespace Node

mutual

theorem holds_mono : (n : Node) → (∀ t ∈ n.terms, t.holds e = true → t.holds e' = true) →
    n.holds e = true → n.holds e' = true
  | .term t, h => h t (by simp [terms])
  | .anyOf ms, h => anyHolds_mono ms h

theorem anyHolds_mono : (ms : List Node) →
    (∀ t ∈ membersTerms ms, t.holds e = true → t.holds e' = true) →
      anyHolds e ms = true → anyHolds e' ms = true
  | [], _ => id
  | m :: ms, h => by
    rw [membersTerms, List.forall_mem_append] at h
    simp only [anyHolds, Bool.or_eq_true]
    exact Or.imp (holds_mono m h.1) (anyHolds_mono ms h.2)

end

mutual

theorem exists_term_of_holds : (n : Node) → n.holds e = true → ∃ t ∈ n.terms, t.holds e = true
  | .term t, h => ⟨t, by simp [terms], h⟩
  | .anyOf ms, h => exists_term_of_anyHolds ms h

theorem exists_term_of_anyHolds : (ms : List Node) → anyHolds e ms = true →
    ∃ t ∈ membersTerms ms, t.holds e = true
  | m :: ms, h => by
    rw [anyHolds, Bool.or_eq_true] at h
    simp only [membersTerms, List.mem_append]
    rcases h with h | h
    · obtain ⟨t, ht, hholds⟩ := exists_term_of_holds m h
      exact ⟨t, .inl ht, hholds⟩
    · obtain ⟨t, ht, hholds⟩ := exists_term_of_anyHolds ms h
      exact ⟨t, .inr ht, hholds⟩

end

end Node

namespace Query

theorem holds_mono (q : Query) (h : ∀ t ∈ q.terms, t.holds e = true → t.holds e' = true) :
    q.holds e = true → q.holds e' = true := by
  rw [holds_iff, holds_iff]
  rintro ⟨hne, hall⟩
  refine ⟨hne, fun n hn => n.holds_mono (fun t ht => h t ?_) (hall n hn)⟩
  exact Node.mem_membersTerms.mpr ⟨n, hn, ht⟩

theorem holds_congr (q : Query) (h : ∀ t ∈ q.terms, t.holds e = t.holds e') :
    q.holds e = q.holds e' := by
  rw [Bool.eq_iff_iff]
  constructor
  · exact q.holds_mono fun t ht => (h t ht ▸ id)
  · exact q.holds_mono fun t ht => (h t ht ▸ id)

theorem holds_eq_of_map {q q' : Query}
    (h : q.items.map (·.holds e) = q'.items.map (·.holds e')) : q.holds e = q'.holds e' := by
  have hempty : q.items.isEmpty = q'.items.isEmpty := by
    simpa only [List.isEmpty_map] using congrArg List.isEmpty h
  have hall : q.items.all (·.holds e) = q'.items.all (·.holds e') := by
    simpa only [List.all_map, Function.id_comp] using congrArg (·.all id) h
  rw [holds, holds, isEmpty, isEmpty, hempty, hall]

end Query

end CalendarRules
