import CalendarRules.Proofs.Query.Catalog
import CalendarRules.Proofs.Query.Monotone

/-!
# Terms that no event satisfies

A term whose property is in no catalog holds of no event, and no other property is like that. In a
group such a term makes no difference: it can be left out, at any depth, and its value can be
anything. Among the items of a query it rules out every event, and so does a group in which there
are no other terms.
-/

namespace CalendarRules

open Text

/-! ## Unknown terms -/

namespace Term

/-- No property has the name that the term asks for. -/
def IsUnknown (t : Term) : Prop := ∀ p : Property, p.name ≠ t.property

variable {t : Term}

theorem isUnknown_iff : t.IsUnknown ↔ Property.ofName? t.property = none := by
  rw [Option.eq_none_iff_forall_ne_some]
  simp only [IsUnknown, ne_eq, Property.ofName?_eq_some_iff]

instance : Decidable t.IsUnknown := decidable_of_iff _ isUnknown_iff.symm

theorem IsUnknown.holds_eq_false (h : t.IsUnknown) (e : Event) : t.holds e = false := by
  rw [← Bool.not_eq_true, holds_iff]
  rintro ⟨p, hp, -⟩
  exact h p hp

end Term

theorem Property.exists_holds (p : Property) : ∃ value e, p.holds (fold value) e = true := by
  cases p with
  | title => exact ⟨"", {}, by decide +kernel⟩
  | description => exact ⟨"", {}, by decide +kernel⟩
  | attendees => exact ⟨"", { attendees := ["ann@acme.com"] }, by decide +kernel⟩
  | domain => exact ⟨"acme.com", { attendees := ["ann@acme.com"] }, by decide +kernel⟩
  | email => exact ⟨"ann@acme.com", { attendees := ["ann@acme.com"] }, by decide +kernel⟩
  | response => exact ⟨"declined", { responseStatus := some "declined" }, by decide +kernel⟩
  | recurring => exact ⟨"yes", { isRecurring := some true }, by decide +kernel⟩
  | isAllDay =>
    exact ⟨"yes", { startTime := some "2025-01-15", endTime := some "2025-01-16" },
      by decide +kernel⟩
  | hasAttendees => exact ⟨"no", {}, by decide +kernel⟩
  | transparency => exact ⟨"busy", {}, by decide +kernel⟩
  | visibility => exact ⟨"default", {}, by decide +kernel⟩
  | dayOfWeek => exact ⟨"wed", { startTime := some "2025-01-15" }, by decide +kernel⟩
  | timeOfDay => exact ⟨"<9:00", { startTime := some "2025-01-15" }, by decide +kernel⟩
  | color => exact ⟨"5", { color := some "5" }, by decide +kernel⟩
  | recurrenceId => exact ⟨"r", { recurrenceId := some "r" }, by decide +kernel⟩

theorem Term.isUnknown_iff_never {t : Term} :
    t.IsUnknown ↔ ∀ value e, (⟨t.property, value⟩ : Term).holds e = false := by
  constructor
  · exact fun h value e => IsUnknown.holds_eq_false (t := ⟨t.property, value⟩) h e
  · intro h p hp
    obtain ⟨value, e, hholds⟩ := p.exists_holds
    have hterm : (⟨t.property, value⟩ : Term).holds e = true := (holds_iff _ e).mpr ⟨p, hp, hholds⟩
    rw [h] at hterm
    cases hterm

/-! ## Leaving them out -/

namespace Node

def isUnknown : Node → Bool
  | .term t => t.IsUnknown
  | .anyOf _ => false

mutual

/-- The node with no unknown terms left in its groups. A group may be left empty. -/
def prune : Node → Node
  | .term t => .term t
  | .anyOf ms => .anyOf (pruneMembers ms)

def pruneMembers : List Node → List Node
  | [] => []
  | m :: ms => if m.isUnknown then pruneMembers ms else m.prune :: pruneMembers ms

end

theorem exists_of_isUnknown {n : Node} (h : n.isUnknown = true) :
    ∃ t : Term, n = .term t ∧ t.IsUnknown := by
  cases n with
  | term t => exact ⟨t, rfl, of_decide_eq_true h⟩
  | anyOf ms => cases h

mutual

theorem holds_prune (e : Event) : (n : Node) → n.prune.holds e = n.holds e
  | .term _ => rfl
  | .anyOf ms => anyHolds_pruneMembers e ms

theorem anyHolds_pruneMembers (e : Event) : (ms : List Node) →
    anyHolds e (pruneMembers ms) = anyHolds e ms
  | [] => rfl
  | m :: ms => by
    -- A member that is left out did not hold, and a group that is left empty does not hold either.
    rw [pruneMembers]
    split
    case isTrue h =>
      obtain ⟨t, rfl, ht⟩ := exists_of_isUnknown h
      rw [anyHolds, holds, ht.holds_eq_false, Bool.false_or, anyHolds_pruneMembers e ms]
    case isFalse h => rw [anyHolds, anyHolds, holds_prune e m, anyHolds_pruneMembers e ms]

end

mutual

theorem terms_prune : (n : Node) → n.isUnknown = false →
    n.prune.terms = n.terms.filter fun t => ¬ t.IsUnknown
  | .term t, h => by
    have ht : ¬ t.IsUnknown := of_decide_eq_false h
    simp [prune, terms, ht]
  | .anyOf ms, _ => membersTerms_pruneMembers ms

theorem membersTerms_pruneMembers : (ms : List Node) →
    membersTerms (pruneMembers ms) = (membersTerms ms).filter fun t => ¬ t.IsUnknown
  | [] => rfl
  | m :: ms => by
    rw [pruneMembers, membersTerms, List.filter_append]
    split
    case isTrue h =>
      obtain ⟨t, rfl, ht⟩ := exists_of_isUnknown h
      simp [terms, ht, membersTerms_pruneMembers ms]
    case isFalse h =>
      rw [membersTerms, terms_prune m (Bool.eq_false_of_not_eq_true h),
        membersTerms_pruneMembers ms]

end

/-! ## Asking them for something else -/

/-- In a row of nodes, one unknown term at any depth gets another value. -/
inductive Rewords : List Node → List Node → Prop
  | here {t : Term} (h : t.IsUnknown) (value : String) (front back : List Node) :
    Rewords (front ++ .term t :: back) (front ++ .term ⟨t.property, value⟩ :: back)
  | inside {ms ns : List Node} (h : Rewords ms ns) (front back : List Node) :
    Rewords (front ++ .anyOf ms :: back) (front ++ .anyOf ns :: back)

theorem map_holds_of_rewords {ms ns : List Node} (h : Rewords ms ns) (e : Event) :
    ms.map (·.holds e) = ns.map (·.holds e) := by
  induction h with
  | @here t h value front back =>
    have hvalue : Term.IsUnknown ⟨t.property, value⟩ := h
    simp [holds, h.holds_eq_false, hvalue.holds_eq_false]
  | @inside ms ns h front back ih =>
    have hany : ms.any (·.holds e) = ns.any (·.holds e) := by
      simpa only [List.any_map, Function.id_comp] using congrArg (·.any id) ih
    simp only [List.map_append, List.map_cons, holds_anyOf, hany]

end Node

namespace Query

/-- The query with no unknown terms left in its groups. Its items stay where they are. -/
def prune (q : Query) : Query := ⟨q.items.map Node.prune⟩

theorem holds_prune (q : Query) (e : Event) : q.prune.holds e = q.holds e := by
  refine holds_eq_of_map ?_
  rw [prune, List.map_map]
  exact List.map_congr_left fun n _ => n.holds_prune e

theorem holds_of_unknown_item {q : Query} {n : Node} (hn : n ∈ q.items)
    (h : ∀ t ∈ n.terms, t.IsUnknown) (e : Event) : q.holds e = false := by
  rw [← Bool.not_eq_true, holds_iff]
  rintro ⟨-, hall⟩
  obtain ⟨t, ht, hholds⟩ := n.exists_term_of_holds (hall n hn)
  rw [(h t ht).holds_eq_false] at hholds
  cases hholds

end Query

end CalendarRules
