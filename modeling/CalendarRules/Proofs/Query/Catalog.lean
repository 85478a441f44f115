import CalendarRules.Proofs.Query.RoundTrip
import CalendarRules.Proofs.Text.Fold
import CalendarRules.Query.Matches

/-!
# Terms of the catalog

A term that names a property of the catalog compares its folded value as that property does, and it
is a query of its own, which is read back from its text.
-/

namespace CalendarRules

open Text

namespace Property

theorem ofName?_name (p : Property) : ofName? p.name = some p := by
  cases p <;> rfl

theorem ofName?_eq_some_iff (name : String) (p : Property) :
    ofName? name = some p ↔ p.name = name := by
  constructor
  · intro h
    exact beq_iff_eq.mp (List.find?_some (p := fun p : Property => p.name == name) h)
  · rintro rfl
    exact p.ofName?_name

theorem lower_name (p : Property) : lower p.name = p.name := by
  have hascii : p.name.toList.all (·.toNat < 0x80) = true := by cases p <;> rfl
  have hown : p.name.toList.map Char.toLower = p.name.toList := by cases p <;> rfl
  rw [lower, lowerFrom_ascii (by simpa using hascii), hown, String.ofList_toList]

theorem ofName?_lower_name (p : Property) : ofName? (lower p.name) = some p := by
  rw [lower_name, ofName?_name]

theorem lowerName_lower_name (p : Property) :
    Query.Grammar.Name Query.Grammar.LowerLetter (lower p.name).toList := by
  rw [lower_name]
  -- Deciding the statement itself would go through all characters.
  have hall : p.name.toList.all (fun c => Query.Grammar.LowerLetter c ∨ c = '-') = true := by
    cases p <;> decide +kernel
  have hchars : ∀ c ∈ p.name.toList,
      Query.Grammar.LowerLetter c ∨ Query.Grammar.Digit c ∨ c = '-' := fun c hc => by
    have hc := of_decide_eq_true (List.all_eq_true.mp hall c hc)
    exact hc.imp_right .inr
  cases p <;> exact ⟨by decide, fun d hd => hchars d (.tail _ hd)⟩

end Property

theorem Compare.agrees_words (actual : Option Bool) :
    agrees (fold "yes") actual = (actual == some true) ∧
      agrees (fold "no") actual = (actual == some false) := by
  have hyes : fold "yes" = "yes" := by rw [fold, foldChars_ascii (by simp)]; rfl
  have hno : fold "no" = "no" := by rw [fold, foldChars_ascii (by simp)]; rfl
  rw [hyes, hno]
  rcases actual with _ | _ | _ <;> constructor <;> rfl

theorem Term.holds_iff (t : Term) (e : Event) :
    t.holds e = true ↔ ∃ p : Property, p.name = t.property ∧ p.holds (fold t.value) e = true := by
  unfold Term.holds
  simp only [← Property.ofName?_eq_some_iff]
  cases Property.ofName? t.property <;> simp

theorem Term.holds_of_name (p : Property) (value : String) (e : Event) :
    (Term.of p.name value).holds e = p.holds (fold value) e := by
  simp [Term.holds, Term.of, p.ofName?_lower_name]

namespace Query

/-- The query that asks for a value of a property and nothing else. -/
def only (p : Property) (value : String) : Query := ⟨[.term (Term.of p.name value)]⟩

theorem holds_only (p : Property) (value : String) (e : Event) :
    (only p value).holds e = p.holds (fold value) e := by
  simp [only, holds, isEmpty, Node.holds, Term.holds_of_name]

theorem parse_only (p : Property) (value : String) :
    parse (only p value).toText = .ok (only p value) := by
  refine parse_toText ?_
  rw [only, terms, Node.membersTerms, Node.membersTerms, Node.terms, List.append_nil,
    namedTerms_singleton]
  exact p.lowerName_lower_name

end Query

end CalendarRules
