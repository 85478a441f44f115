import CalendarRules.Proofs.Query.Catalog
import CalendarRules.Proofs.Text.Fold

/-!
# Events found by their own text

A term that is made of the text of an event should find the event. A piece of a title, a description
or an address does, unless it is cut at a capital sigma. An address or its domain does as well,
unless it has quote marks: they are taken out of the value of the term, but not out of the address.
-/

namespace CalendarRules

open Text

/-! ## Pieces of a text -/

namespace Compare

theorem contains_piece {before piece after : String}
    (h : SigmasStay before.toList.reverse piece.toList after.toList) :
    contains (before ++ piece ++ after) (fold piece) = true := by
  have hplace := (foldIn_eq_foldChars_iff _ _ _).mpr h
  rw [contains_iff, foldChars_eq_foldIn, fold, String.toList_ofList, ← hplace]
  refine ⟨foldIn [] (piece.toList ++ after.toList) before.toList,
    foldIn (piece.toList.reverse ++ before.toList.reverse) [] after.toList, ?_⟩
  simp [foldIn_append]

end Compare

namespace Event

/-- A piece of a title, a description or an address finds the event if its sigmas stay what they
are. -/
theorem piece_found {before piece after : String}
    (h : SigmasStay before.toList.reverse piece.toList after.toList) (e : Event) :
    (e.title = some (before ++ piece ++ after) → (Query.only .title piece).holds e = true) ∧
      (e.description = some (before ++ piece ++ after) →
        (Query.only .description piece).holds e = true) ∧
      (before ++ piece ++ after ∈ e.attendees →
        (Query.only .attendees piece).holds e = true) := by
  have hcontains := Compare.contains_piece h
  refine ⟨?_, ?_, ?_⟩
  · intro htitle
    rw [Query.holds_only, Property.holds, htitle]
    exact hcontains
  · intro hdescription
    rw [Query.holds_only, Property.holds, hdescription]
    exact hcontains
  · intro hmem
    rw [Query.holds_only, Property.holds, List.any_eq_true]
    exact ⟨_, hmem, hcontains⟩

/-- A whole word keeps its sigmas, the final one too, and a piece without a sigma may be cut
anywhere. -/
theorem piece_found_odysseus :
    let e : Event := { title := some "Ο ΟΔΥΣΣΕΥΣ ΓΥΡΙΣΕ", attendees := ["ΟΔΥΣΣΕΥΣ"] }
    e.title = some ("Ο " ++ "ΟΔΥΣΣΕΥΣ" ++ " ΓΥΡΙΣΕ") ∧ "Ο" ++ "ΔΥ" ++ "ΣΣΕΥΣ" ∈ e.attendees ∧
      SigmasStay "Ο ".toList.reverse "ΟΔΥΣΣΕΥΣ".toList " ΓΥΡΙΣΕ".toList ∧
      SigmasStay "Ο".toList.reverse "ΔΥ".toList "ΣΣΕΥΣ".toList ∧
      (Query.only .title "ΟΔΥΣΣΕΥΣ").holds e = true ∧
      (Query.only .attendees "ΔΥ").holds e = true := by
  intro e
  have htitle : e.title = some ("Ο " ++ "ΟΔΥΣΣΕΥΣ" ++ " ΓΥΡΙΣΕ") := by decide
  have hmem : "Ο" ++ "ΔΥ" ++ "ΣΣΕΥΣ" ∈ e.attendees := by decide
  have hword : SigmasStay "Ο ".toList.reverse "ΟΔΥΣΣΕΥΣ".toList " ΓΥΡΙΣΕ".toList :=
    sigmasStay_of_not_startsCased (by decide +kernel) (by decide +kernel) _
  have hcut : SigmasStay "Ο".toList.reverse "ΔΥ".toList "ΣΣΕΥΣ".toList :=
    sigmasStay_of_no_sigma (by decide) _ _
  exact ⟨htitle, hmem, hword, hcut, (piece_found hword e).1 htitle, (piece_found hcut e).2.2 hmem⟩

/-- A piece that is cut after a sigma ends with a final sigma, and the text has none there. -/
theorem piece_cut_at_sigma_missed :
    "ΣΟΣΙΑΛ" = "" ++ "ΣΟΣ" ++ "ΙΑΛ" ∧
      (Query.only .title "ΣΟΣ").holds { title := some "ΣΟΣΙΑΛ" } = false ∧
      (Query.only .description "ΣΟΣ").holds { description := some "ΣΟΣΙΑΛ" } = false ∧
      (Query.only .attendees "ΣΟΣ").holds { attendees := ["ΣΟΣΙΑΛ"] } = false := by
  decide +kernel

/-! ## Addresses -/

/-- What stands in an address after its first `@`, up to the next one or the end. -/
def IsDomain (address domain : String) : Prop :=
  ∃ user rest, address.toList = user ++ '@' :: (domain.toList ++ rest) ∧ '@' ∉ user ∧
    '@' ∉ domain.toList ∧ ∀ c ∈ rest.head?, c = '@'

theorem isDomain_of_domainOf? {address domain : String} (h : domainOf? address = some domain) :
    IsDomain address domain := by
  unfold domainOf? at h
  have hwhole := List.takeWhile_append_dropWhile (p := (· != '@')) (l := address.toList)
  cases hrest : address.toList.dropWhile (· != '@') with
  | nil => simp [hrest] at h
  | cons c cs =>
    simp only [hrest, Option.some.injEq] at h
    subst h
    have hhead : c ∈ (address.toList.dropWhile (· != '@')).head? := by
      rw [hrest]
      rfl
    have hc : c = '@' := by simpa using of_mem_head?_dropWhile hhead
    subst hc
    refine ⟨address.toList.takeWhile (· != '@'), cs.dropWhile (· != '@'), ?_, ?_, ?_, ?_⟩
    · rw [String.toList_ofList, List.takeWhile_append_dropWhile, ← hrest, hwhole]
    · intro hmem
      simpa using List.mem_takeWhile_imp hmem
    · intro hmem
      rw [String.toList_ofList] at hmem
      simpa using List.mem_takeWhile_imp hmem
    · intro d hd
      simpa using of_mem_head?_dropWhile hd

theorem domainOf?_eq_some_iff (address domain : String) :
    domainOf? address = some domain ↔ IsDomain address domain := by
  refine ⟨isDomain_of_domainOf?, ?_⟩
  rintro ⟨user, rest, haddress, huser, hdomain, hrest⟩
  have hsplit := takeWhile_run (· != '@') user ('@' :: (domain.toList ++ rest))
    (by simpa using fun c hc => ne_of_mem_of_not_mem hc huser) (by simp)
  have hend := takeWhile_run (· != '@') domain.toList rest
    (by simpa using fun c hc => ne_of_mem_of_not_mem hc hdomain) (by simpa using hrest)
  rw [domainOf?, haddress, hsplit.2]
  simp only [hend.1, String.ofList_toList]

theorem exists_isDomain {address : String} (h : '@' ∈ address.toList) :
    ∃ domain, IsDomain address domain := by
  have hsome : ∃ domain, domainOf? address = some domain := by
    unfold domainOf?
    cases hrest : address.toList.dropWhile (· != '@') with
    | nil =>
      have hnone := List.dropWhile_eq_nil_iff.mp hrest '@' h
      cases hnone
    | cons c cs => exact ⟨_, rfl⟩
  obtain ⟨domain, hdomain⟩ := hsome
  exact ⟨domain, isDomain_of_domainOf? hdomain⟩

/-- The domain of an attendee. -/
def HasDomain (e : Event) (domain : String) : Prop := ∃ a ∈ e.attendees, IsDomain a domain

theorem holds_email_iff (value : String) (e : Event) :
    (Query.only .email value).holds e = true ↔ ∃ b, b ∈ e.attendees ∧ lower b = fold value := by
  rw [Query.holds_only, Property.holds, List.any_eq_true]
  simp

theorem holds_domain_iff (value : String) (e : Event) :
    (Query.only .domain value).holds e = true ↔ ∃ d, e.HasDomain d ∧ lower d = fold value := by
  rw [Query.holds_only, Property.holds, List.any_eq_true]
  simp only [domains, List.mem_filterMap, Option.map_eq_some_iff, domainOf?_eq_some_iff, beq_iff_eq]
  constructor
  · rintro ⟨_, ⟨a, ha, d, hd, rfl⟩, hvalue⟩
    exact ⟨d, ⟨a, ha, hd⟩, hvalue⟩
  · rintro ⟨d, ⟨a, ha, hd⟩, hvalue⟩
    exact ⟨_, ⟨a, ha, d, hd, rfl⟩, hvalue⟩

/-- An address finds its event exactly if it has no quote marks, or if another attendee has that
address without them. So does the domain of an address. -/
theorem own_address_found_iff {e : Event} {a : String} (ha : a ∈ e.attendees) :
    (Query.parse (Query.only .email a).toText = .ok (Query.only .email a) ∧
        ((Query.only .email a).holds e = true ↔
          Unquoted a ∨ ∃ b, b ∈ e.attendees ∧ b ≠ a ∧ lower b = fold a)) ∧
      ('@' ∈ a.toList → ∃ d, IsDomain a d) ∧
      ∀ d, IsDomain a d →
        Query.parse (Query.only .domain d).toText = .ok (Query.only .domain d) ∧
          ((Query.only .domain d).holds e = true ↔
            Unquoted d ∨ ∃ d', e.HasDomain d' ∧ d' ≠ d ∧ lower d' = fold d) := by
  refine ⟨⟨Query.parse_only .email a, ?_⟩, exists_isDomain, ?_⟩
  · rw [holds_email_iff, exists_lower_eq_fold_iff ha]
  · intro d hd
    refine ⟨Query.parse_only .domain d, ?_⟩
    rw [holds_domain_iff, exists_lower_eq_fold_iff ⟨a, ha, hd⟩]

/-- Capital letters and a second `@` are no obstacle. -/
theorem own_address_found_ann :
    let e : Event := { attendees := ["Ann@Acme.com@work"] }
    "Ann@Acme.com@work" ∈ e.attendees ∧ IsDomain "Ann@Acme.com@work" "Acme.com" ∧
      (Query.only .email "Ann@Acme.com@work").holds e = true ∧
      (Query.only .domain "Acme.com").holds e = true := by
  intro e
  have ha : "Ann@Acme.com@work" ∈ e.attendees := by decide
  have hdomain : IsDomain "Ann@Acme.com@work" "Acme.com" :=
    ⟨"Ann".toList, "@work".toList, by decide, by decide, by decide, by simp⟩
  have hfound := own_address_found_iff ha
  exact ⟨ha, hdomain, hfound.1.2.mpr (.inl (by decide)),
    (hfound.2.2 _ hdomain).2.mpr (.inl (by decide))⟩

/-- The apostrophe is taken out of the value and kept in the address. -/
theorem own_quoted_address_missed :
    let e : Event := { attendees := ["o'brien@acme.com", "ann@o'brien.com"] }
    (Query.only .email "o'brien@acme.com").holds e = false ∧
      IsDomain "ann@o'brien.com" "o'brien.com" ∧
      (Query.only .domain "o'brien.com").holds e = false := by
  refine ⟨by decide +kernel, ?_, by decide +kernel⟩
  exact ⟨"ann".toList, [], by decide, by decide, by decide, by simp⟩

end Event

end CalendarRules
