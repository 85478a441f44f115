import CalendarRules.Proofs.Query.Catalog
import CalendarRules.Proofs.Query.Columns
import CalendarRules.Proofs.Query.Respelling
import CalendarRules.Proofs.Text.Quotes

/-!
# Quote marks in events and queries

Titles, descriptions and addresses are compared by their folded forms, and so are the values of a
query. So quote marks can come and go in all of them unless one changes a sigma.
-/

namespace CalendarRules

open Text

/-- The events hold the same but for quote marks in the title, the description and the addresses,
and these change no sigma. -/
structure Event.Alike (e e' : Event) : Prop where
  title : Text.Alike (e.title.getD "") (e'.title.getD "")
  description : Text.Alike (e.description.getD "") (e'.description.getD "")
  attendees : List.Forall₂ Text.Alike e.attendees e'.attendees
  others : ∀ c, c ∉ [Column.title, .description, .attendees] → e.SameIn e' c

theorem Compare.contains_congr {s t : String} (h : Text.Alike s t) (value : String) :
    contains s value = contains t value := by
  rw [contains, contains, h.foldChars_eq]

theorem any_contains_congr {xs ys : List String} (h : List.Forall₂ Text.Alike xs ys)
    (value : String) : xs.any (Compare.contains · value) = ys.any (Compare.contains · value) := by
  induction h with
  | nil => rfl
  | cons hx _ ih => rw [List.any_cons, List.any_cons, Compare.contains_congr hx, ih]

theorem Property.holds_of_alike {p : Property} (hp : p ≠ .domain ∧ p ≠ .email) {e e' : Event}
    (h : e.Alike e') (value : String) : p.holds value e = p.holds value e' := by
  cases p with
  | title => exact Compare.contains_congr h.title value
  | description => exact Compare.contains_congr h.description value
  | attendees => exact any_contains_congr h.attendees value
  | hasAttendees =>
    have hempty : e.attendees.isEmpty = e'.attendees.isEmpty := by
      rw [Bool.eq_iff_iff, List.isEmpty_iff_length_eq_zero, List.isEmpty_iff_length_eq_zero,
        h.attendees.length_eq]
    rw [holds, holds, hempty]
  -- Domains and whole addresses are compared with the quote marks that they have.
  | domain => exact absurd rfl hp.1
  | email => exact absurd rfl hp.2
  | _ => exact holds_congr (fun c hc => h.others c (by revert c; decide)) value

/-- Two texts that are equal without quote marks fold alike exactly if their sigmas become the same.
They do in texts without capital sigmas, if the double marks stand around whole words, and if only
apostrophes differ. Then the marks can come and go in titles, descriptions, addresses and values,
but for questions about domains and whole addresses. -/
theorem Query.quote_marks_ignored (s t : String) :
    (stripQuotes s.toList = stripQuotes t.toList →
        (fold s = fold t ↔ smallSigmas [] s.toList = smallSigmas [] t.toList) ∧
          ('Σ' ∉ s.toList → Alike s t) ∧
          (QuotedAtEdges s.toList → QuotedAtEdges t.toList → Alike s t)) ∧
      (stripApostrophes s.toList = stripApostrophes t.toList → Alike s t) ∧
      ∀ (q q' : Query) (e e' : Event), q.Respelled Alike q' → e.Alike e' →
        (∀ t ∈ q.terms, t.property ≠ "domain" ∧ t.property ≠ "email") →
          q.holds e = q'.holds e' := by
  refine ⟨fun h => ⟨?_, alike_of_no_sigma h, alike_of_edges h⟩, alike_of_apostrophes, ?_⟩
  · rw [fold, fold, String.ofList_inj, foldChars_eq_iff h]
  · intro q q' e e' hq he hterms
    refine hq.holds_eq fun t ht value hvalue => ?_
    have hfold : fold t.value = fold value := by rw [fold, fold, hvalue.foldChars_eq]
    rw [Bool.eq_iff_iff, Term.holds_iff, Term.holds_iff, hfold]
    refine exists_congr fun p => and_congr_right fun hp => ?_
    have hne : p ≠ .domain ∧ p ≠ .email := by
      refine ⟨?_, ?_⟩
      · rintro rfl
        exact (hterms t ht).1 hp.symm
      · rintro rfl
        exact (hterms t ht).2 hp.symm
    rw [Property.holds_of_alike hne he]

/-- The quotes around a word leave its final sigma alone, and an apostrophe hides nothing. -/
theorem Query.quote_marks_ignored_sabbas :
    let s := "“ΣΑΒΒΑΣ” O'Brien"
    let t := "'ΣΑΒΒΑΣ' OBrien"
    let e : Event := { title := some s, color := some "5" }
    let e' : Event := { title := some t, color := some "5" }
    let q : Query := ⟨[.anyOf [.term ⟨"title", "ΣΑΒΒΑΣ"⟩], .term ⟨"color", "5"⟩]⟩
    let q' : Query := ⟨[.anyOf [.term ⟨"title", "‘ΣΑΒΒΑΣ’"⟩], .term ⟨"color", "5"⟩]⟩
    stripQuotes s.toList = stripQuotes t.toList ∧ fold s = fold t ∧
      QuotedAtEdges s.toList ∧ QuotedAtEdges t.toList ∧ Alike s t ∧
      q.Respelled Alike q' ∧ e.Alike e' ∧
      (∀ t ∈ q.terms, t.property ≠ "domain" ∧ t.property ≠ "email") ∧
      q.holds e = q'.holds e' ∧ q.holds e = true := by
  intro s t e e' q q'
  obtain ⟨htexts, -, hqueries⟩ := quote_marks_ignored s t
  have hstripped : stripQuotes s.toList = stripQuotes t.toList := by decide +kernel
  have hs : QuotedAtEdges s.toList := by decide +kernel
  have ht : QuotedAtEdges t.toList := by decide +kernel
  obtain ⟨hfold, -, hedges⟩ := htexts hstripped
  have halike : Alike s t := hedges hs ht
  have hsame (v : String) : Alike v v := ⟨rfl, rfl⟩
  have hq : q.Respelled Alike q' := by
    refine .cons (.anyOf (.cons (.term "title" ?_) .nil)) (.cons (.term "color" (hsame "5")) .nil)
    exact (quote_marks_ignored _ _).2.1 (by decide +kernel)
  have he : e.Alike e' := by
    refine ⟨halike, hsame "", .nil, fun c hc => ?_⟩
    cases c <;> first | rfl | exact absurd hc (by decide)
  have hterms : ∀ t ∈ q.terms, t.property ≠ "domain" ∧ t.property ≠ "email" := by decide
  exact ⟨hstripped, hfold.mpr halike.sigmas, hs, ht, halike, hq, he, hterms,
    hqueries q q' e e' hq he hterms, by decide +kernel⟩

/-- A double mark inside a word makes the sigma in front of it a final one. -/
theorem Query.mark_inside_word_counts :
    let s := "ΠΡΟΣ\"ΒΑΣΗ\""
    let t := "ΠΡΟΣΒΑΣΗ"
    stripQuotes s.toList = stripQuotes t.toList ∧ fold s ≠ fold t ∧
      (only .title t).holds { title := some t } = true ∧
      (only .title t).holds { title := some s } = false ∧
      (only .title s).holds { title := some t } = false ∧
      (only .description t).holds { description := some s } = false ∧
      (only .attendees t).holds { attendees := [s] } = false := by
  decide +kernel

end CalendarRules
