import CalendarRules.Proofs.Query.Catalog
import CalendarRules.Proofs.Rule.FirstMatch
import CalendarRules.Proofs.Text.Fold

/-!
# What fingerprints claim

A fingerprint asks for any of its domains, addresses and keywords. One that is blank is left out,
because every title would contain it. A keyword of quote marks is not blank, but the quote marks do
not count in comparisons, so it does the same.
-/

namespace CalendarRules

open Text

namespace Fingerprint

/-! ## The events of a fingerprint -/

/-- The event compares with one of the values, blank ones apart, as the property wants it. -/
def AnyHolds (p : Property) (values : List String) (e : Event) : Prop :=
  ∃ value ∈ values, trim value ≠ "" ∧ p.holds (fold (trim value)) e = true

theorem any_termsFor_iff (p : Property) (values : List String) (e : Event) :
    (termsFor p.name values).any (·.holds e) = true ↔ AnyHolds p values e := by
  simp [termsFor, AnyHolds, Node.holds, Term.holds_of_name]

theorem applies_iff (f : Fingerprint) (e : Event) :
    f.applies e = true ↔
      AnyHolds .domain f.domains e ∨ AnyHolds .email f.emails e ∨ AnyHolds .title f.keywords e := by
  have hmembers : f.applies e = f.members.any (·.holds e) := by
    unfold applies toQuery?
    cases hmembers : f.members with
    | nil => rfl
    | cons m ms => simp [Query.holds, Query.isEmpty, Node.holds, Node.anyHolds_eq_any]
  rw [hmembers, members, List.any_append, List.any_append, Bool.or_eq_true, Bool.or_eq_true,
    or_assoc, ← any_termsFor_iff, ← any_termsFor_iff, ← any_termsFor_iff]
  rfl

/-! ## Keywords of quote marks -/

/-- The keyword is made of quote marks, with blanks around them at most. -/
def isQuotesOnly (keyword : String) : Bool :=
  !(trim keyword).isEmpty && (trim keyword).toList.all isQuoteMark

/-- The fingerprint has a keyword that stands in every title. -/
def claimsAll (f : Fingerprint) : Bool := f.keywords.any isQuotesOnly

theorem isQuotesOnly_iff (keyword : String) :
    isQuotesOnly keyword = true ↔ trim keyword ≠ "" ∧ fold (trim keyword) = "" := by
  rw [fold_eq_empty_iff]
  simp [isQuotesOnly]

theorem applies_of_claimsAll {f : Fingerprint} (h : f.claimsAll = true) (e : Event) :
    f.applies e = true := by
  obtain ⟨keyword, hmem, hquotes⟩ := List.any_eq_true.mp h
  obtain ⟨hne, hfold⟩ := (isQuotesOnly_iff keyword).mp hquotes
  refine (applies_iff f e).mpr (.inr (.inr ⟨keyword, hmem, hne, ?_⟩))
  rw [Property.holds, hfold, Compare.contains_iff]
  exact List.nil_infix

/-- The event has no attendees, and its title is missing or empty. -/
def IsBare (e : Event) : Prop := e.attendees = [] ∧ (e.title = none ∨ e.title = some "")

theorem applies_bare_iff {e : Event} (h : IsBare e) (f : Fingerprint) :
    f.applies e = true ↔ f.claimsAll = true := by
  obtain ⟨hattendees, htitle⟩ := h
  refine ⟨?_, fun hall => applies_of_claimsAll hall e⟩
  intro happlies
  rcases (applies_iff f e).mp happlies with ⟨_, -, -, h⟩ | ⟨_, -, -, h⟩ | ⟨keyword, hmem, hne, h⟩
  · simp [Property.holds, Event.domains, hattendees] at h
  · simp [Property.holds, hattendees] at h
  · have hempty : e.title.getD "" = "" := by
      rcases htitle with htitle | htitle <;> rw [htitle] <;> rfl
    have hnil : foldChars "".toList = [] := rfl
    rw [Property.holds, hempty, Compare.contains_iff, hnil, List.infix_nil,
      String.toList_eq_nil_iff] at h
    exact List.any_eq_true.mpr ⟨keyword, hmem, (isQuotesOnly_iff keyword).mpr ⟨hne, h⟩⟩

/-! ## The theorem -/

theorem classify_fingerprints (fs : List Fingerprint) (e : Event) :
    (Classifier.ofBook { fingerprints := fs }).classify e =
      (fs.find? (·.applies e)).map result := by
  unfold Classifier.classify Classifier.ofBook
  have hrules : RuleBook.ordered { fingerprints := fs } = [] := List.mergeSort_nil
  rw [hrules, List.filterMap_nil, List.nil_append, find?_compiled result_of_compiled?]
  simp only [← applies_eq]

/-- Fingerprints claim an event without attendees and title exactly if one of them has a keyword of
quote marks. The first of these claims it, and would claim any other event. -/
theorem classify_bare_iff {e : Event} (h : IsBare e) (fs : List Fingerprint) :
    ((Classifier.ofBook { fingerprints := fs }).classify e = none ↔
        ∀ f ∈ fs, ∀ keyword ∈ f.keywords, isQuotesOnly keyword = false) ∧
      (Classifier.ofBook { fingerprints := fs }).classify e = (fs.find? claimsAll).map result ∧
      ∀ f ∈ fs, f.claimsAll = true →
        ∀ e', (Classifier.ofBook { fingerprints := fs }).classify e' ≠ none := by
  have happlies : (fun f : Fingerprint => f.applies e) = claimsAll := by
    funext f
    exact Bool.eq_iff_iff.mpr (applies_bare_iff h f)
  refine ⟨?_, ?_, ?_⟩
  · rw [classify_fingerprints, happlies]
    simp [claimsAll]
  · rw [classify_fingerprints, happlies]
  · intro f hf hall e'
    rw [classify_fingerprints]
    intro hnone
    have hfind := Option.map_eq_none_iff.mp hnone
    exact List.find?_eq_none.mp hfind f hf (applies_of_claimsAll hall e')

/-- Blank values and values with blanks among quote marks claim no bare event. -/
theorem classify_bare_blank :
    IsBare { title := some "" } ∧
      (Classifier.ofBook { fingerprints :=
        [⟨"p", none, [" "], ["ann@acme.com"], ["", "' '"]⟩] }).classify { title := some "" } =
        none := by
  have hbare : IsBare { title := some "" } := ⟨rfl, .inr rfl⟩
  refine ⟨hbare, (classify_bare_iff hbare _).1.mpr ?_⟩
  decide +kernel

/-- A keyword of one apostrophe claims an event that has nothing at all. -/
theorem quotes_claim_bare_event :
    IsBare {} ∧ (Classifier.ofBook { fingerprints :=
      [{ projectId := "p", keywords := ["'"] }] }).classify {} =
        some ⟨.fingerprint, "fingerprint:p", none, .project "p"⟩ := by
  refine ⟨⟨rfl, .inl rfl⟩, ?_⟩
  decide +kernel

end Fingerprint

end CalendarRules
