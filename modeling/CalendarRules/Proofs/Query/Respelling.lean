import CalendarRules.Event.Row
import CalendarRules.Proofs.Query.Monotone
import CalendarRules.Proofs.Text.Refold

/-!
# Queries with their values spelled in another way

A term compares the folded form of its value. So values can be spelled in any way that folds alike,
at any depth of a query, and in particular they can be folded beforehand.
-/

namespace CalendarRules

open Text

variable {R : String → String → Prop} {e e' : Event}

namespace Node

mutual

/-- Nodes of one shape, in which terms for the same property stand in the same places, with values
that the relation joins. -/
inductive Respelled (R : String → String → Prop) : Node → Node → Prop
  | term (property : String) {value value' : String} (h : R value value') :
    Respelled R (.term ⟨property, value⟩) (.term ⟨property, value'⟩)
  | anyOf {ms ns : List Node} (h : MembersRespelled R ms ns) : Respelled R (.anyOf ms) (.anyOf ns)

inductive MembersRespelled (R : String → String → Prop) : List Node → List Node → Prop
  | nil : MembersRespelled R [] []
  | cons {m n : Node} {ms ns : List Node} (h : Respelled R m n) (hs : MembersRespelled R ms ns) :
    MembersRespelled R (m :: ms) (n :: ns)

end

mutual

theorem Respelled.holds_eq {m n : Node} : Respelled R m n →
    (∀ t ∈ m.terms, ∀ value, R t.value value →
      t.holds e = (⟨t.property, value⟩ : Term).holds e') → m.holds e = n.holds e'
  | .term property h, hterms => hterms ⟨property, _⟩ (by simp [terms]) _ h
  | .anyOf h, hterms => by
    rw [holds_anyOf, holds_anyOf]
    simpa only [List.any_map, Function.id_comp] using congrArg (·.any id) (h.map_holds_eq hterms)

theorem MembersRespelled.map_holds_eq {ms ns : List Node} : MembersRespelled R ms ns →
    (∀ t ∈ membersTerms ms, ∀ value, R t.value value →
      t.holds e = (⟨t.property, value⟩ : Term).holds e') →
      ms.map (·.holds e) = ns.map (·.holds e')
  | .nil, _ => rfl
  | .cons h hs, hterms => by
    rw [membersTerms, List.forall_mem_append] at hterms
    rw [List.map_cons, List.map_cons, h.holds_eq hterms.1, hs.map_holds_eq hterms.2]

end

/-! ## Values changed one by one -/

mutual

def mapValues (f : String → String) : Node → Node
  | .term t => .term ⟨t.property, f t.value⟩
  | .anyOf ms => .anyOf (mapMembersValues f ms)

def mapMembersValues (f : String → String) : List Node → List Node
  | [] => []
  | m :: ms => m.mapValues f :: mapMembersValues f ms

end

mutual

theorem respelled_mapValues (f : String → String) : (n : Node) →
    Respelled (fun value value' => value' = f value) n (n.mapValues f)
  | .term t => .term t.property rfl
  | .anyOf ms => .anyOf (respelled_mapMembersValues f ms)

theorem respelled_mapMembersValues (f : String → String) : (ms : List Node) →
    MembersRespelled (fun value value' => value' = f value) ms (mapMembersValues f ms)
  | [] => .nil
  | m :: ms => .cons (respelled_mapValues f m) (respelled_mapMembersValues f ms)

end

end Node

namespace Query

def Respelled (R : String → String → Prop) (q q' : Query) : Prop :=
  Node.MembersRespelled R q.items q'.items

theorem Respelled.holds_eq {q q' : Query} (h : q.Respelled R q')
    (hterms : ∀ t ∈ q.terms, ∀ value, R t.value value →
      t.holds e = (⟨t.property, value⟩ : Term).holds e') : q.holds e = q'.holds e' :=
  holds_eq_of_map (h.map_holds_eq hterms)

/-- The query with its values folded, at every depth. -/
def folded (q : Query) : Query := ⟨Node.mapMembersValues fold q.items⟩

/-- Folding what is folded changes nothing, and a query with folded values matches the same events
and rows, whatever properties it names. -/
theorem folded_matches (q : Query) :
    (∀ s, fold (fold s) = fold s) ∧ (∀ e, q.folded.holds e = q.holds e) ∧
      ∀ row : Row, q.folded.holds row.read = q.holds row.read := by
  have hevents (e : Event) : q.folded.holds e = q.holds e := by
    have hshape : q.Respelled (fun value value' => value' = fold value) q.folded :=
      Node.respelled_mapMembersValues fold q.items
    refine (hshape.holds_eq ?_).symm
    rintro t - value rfl
    rw [Term.holds, Term.holds, fold_fold]
  exact ⟨fold_fold, hevents, fun row => hevents row.read⟩

end Query

end CalendarRules
