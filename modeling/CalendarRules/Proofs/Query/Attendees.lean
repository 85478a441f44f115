import CalendarRules.Proofs.Query.Monotone
import CalendarRules.Proofs.Query.OwnText
import CalendarRules.Proofs.Text.Refold

/-!
# What queries learn from the attendees

A query asks for attendees by a piece of an address, a domain, a whole address, or whether there are
any. An address says more than its domain, and a domain more than a piece. Only the set of the
addresses counts, and but for the question whether there are any, more addresses only find more.
-/

namespace CalendarRules

open Text

namespace Event

/-! ## An address, its domain and its pieces -/

theorem holds_attendees_iff (value : String) (e : Event) :
    (Query.only .attendees value).holds e = true ↔
      ∃ a ∈ e.attendees, Compare.contains a (fold value) = true := by
  rw [Query.holds_only, Property.holds, List.any_eq_true]

theorem isDomain_fold {address domain : String} (h : IsDomain address domain) :
    IsDomain (fold address) (fold domain) := by
  obtain ⟨user, rest, haddress, huser, hdomain, hrest⟩ := h
  have hplace : foldIn ('@' :: user.reverse) rest domain.toList = foldChars domain.toList :=
    (foldIn_eq_foldChars_iff _ _ _).mpr (sigmasStay_between (by simp) hrest _)
  rw [foldChars_eq_foldIn] at hplace
  refine ⟨foldIn [] ('@' :: (domain.toList ++ rest)) user,
    foldIn (domain.toList.reverse ++ '@' :: user.reverse) [] rest, ?_, ?_, ?_, ?_⟩
  · simp only [fold, String.toList_ofList, foldChars_eq_foldIn, haddress, foldIn_append, foldIn_at,
      List.append_nil, hplace]
  · rwa [at_mem_foldIn_iff]
  · rwa [fold, String.toList_ofList, foldChars_eq_foldIn, at_mem_foldIn_iff]
  · cases rest with
    | nil => simp [foldIn]
    | cons c cs =>
      obtain rfl : c = '@' := hrest c rfl
      simp [foldIn_at]

theorem IsDomain.unique {address d d' : String} (h : IsDomain address d)
    (h' : IsDomain address d') : d = d' := by
  rw [← domainOf?_eq_some_iff] at h h'
  exact Option.some.inj (h.symm.trans h')

theorem contains_domain {address domain : String} (h : IsDomain address domain) :
    Compare.contains address (fold domain) = true := by
  obtain ⟨user, rest, haddress, -, -, hrest⟩ := h
  have hparts : address = String.ofList (user ++ ['@']) ++ domain ++ String.ofList rest := by
    rw [← String.toList_inj]
    simp [haddress]
  rw [hparts]
  refine Compare.contains_piece (sigmasStay_between (by simp) ?_ _)
  rwa [String.toList_ofList]

theorem at_mem_of_isDomain {address domain : String} (h : IsDomain address domain) :
    '@' ∈ address.toList := by
  obtain ⟨user, rest, haddress, -⟩ := h
  simp [haddress]

theorem unquoted_of_isDomain {address domain : String} (h : IsDomain address domain)
    (hquotes : Unquoted address) : Unquoted domain := by
  obtain ⟨user, rest, haddress, -⟩ := h
  intro c hc
  exact hquotes c (by simp [haddress, hc])

/-! ## From one property to another -/

section Implications

variable {value : String} {e : Event}

theorem holds_attendees_of_email (h : (Query.only .email value).holds e = true) :
    (Query.only .attendees value).holds e = true := by
  obtain ⟨a, ha, hlower⟩ := (holds_email_iff value e).mp h
  obtain ⟨-, hfold⟩ := (lower_eq_fold_iff a value).mp hlower
  refine (holds_attendees_iff value e).mpr ⟨a, ha, ?_⟩
  rw [Compare.contains_iff, ← hfold, fold, String.toList_ofList]

theorem holds_attendees_of_domain (h : (Query.only .domain value).holds e = true) :
    (Query.only .attendees value).holds e = true := by
  obtain ⟨d, ⟨a, ha, hd⟩, hlower⟩ := (holds_domain_iff value e).mp h
  obtain ⟨-, hfold⟩ := (lower_eq_fold_iff d value).mp hlower
  refine (holds_attendees_iff value e).mpr ⟨a, ha, ?_⟩
  rw [← hfold]
  exact contains_domain hd

theorem holds_domain_of_email {d : String} (hd : IsDomain (fold value) d)
    (h : (Query.only .email value).holds e = true) : (Query.only .domain d).holds e = true := by
  obtain ⟨a, ha, hlower⟩ := (holds_email_iff value e).mp h
  obtain ⟨hquotes, hfold⟩ := (lower_eq_fold_iff a value).mp hlower
  rw [← hfold] at hd
  have hat : '@' ∈ a.toList := by
    rw [← at_mem_foldIn_iff [] [], ← foldChars_eq_foldIn, ← String.toList_ofList (l := foldChars _)]
    exact at_mem_of_isDomain hd
  obtain ⟨own, hown⟩ := exists_isDomain hat
  have hsame : d = fold own := hd.unique (isDomain_fold hown)
  refine (holds_domain_iff d e).mpr ⟨own, ⟨a, ha, hown⟩, ?_⟩
  rw [lower_eq_fold_iff, hsame, fold_fold]
  exact ⟨unquoted_of_isDomain hown hquotes, rfl⟩

theorem ne_nil_of_holds_attendees (h : (Query.only .attendees value).holds e = true) :
    e.attendees ≠ [] := by
  obtain ⟨a, ha, -⟩ := (holds_attendees_iff value e).mp h
  exact List.ne_nil_of_mem ha

end Implications

theorem holds_hasAttendees (e : Event) :
    (Query.only .hasAttendees "yes").holds e = !e.attendees.isEmpty ∧
      (Query.only .hasAttendees "no").holds e = e.attendees.isEmpty := by
  rw [Query.holds_only, Query.holds_only, Property.holds, Property.holds,
    (Compare.agrees_words _).1, (Compare.agrees_words _).2]
  cases e.attendees.isEmpty <;> exact ⟨rfl, rfl⟩

/-- What finds an address finds its domain and both as pieces, and an event that is found by any of
these has attendees. -/
theorem attendee_terms_agree (e : Event) (value : String) :
    ((Query.only .email value).holds e = true → (Query.only .attendees value).holds e = true) ∧
      ((Query.only .domain value).holds e = true →
        (Query.only .attendees value).holds e = true) ∧
      ('@' ∈ (fold value).toList → ∃ d, IsDomain (fold value) d) ∧
      (∀ d, IsDomain (fold value) d → (Query.only .email value).holds e = true →
        (Query.only .domain d).holds e = true) ∧
      ∀ p ∈ [Property.attendees, .domain, .email], (Query.only p value).holds e = true →
        (Query.only .hasAttendees "yes").holds e = true ∧
          (Query.only .hasAttendees "no").holds e = false := by
  refine ⟨holds_attendees_of_email, holds_attendees_of_domain, exists_isDomain,
    fun d hd h => holds_domain_of_email hd h, ?_⟩
  intro p hp h
  have hattendees : (Query.only .attendees value).holds e = true := by
    simp only [List.mem_cons, List.not_mem_nil, or_false] at hp
    rcases hp with rfl | rfl | rfl
    · exact h
    · exact holds_attendees_of_domain h
    · exact holds_attendees_of_email h
  have hne : e.attendees.isEmpty = false := by
    simpa using ne_nil_of_holds_attendees hattendees
  obtain ⟨hyes, hno⟩ := holds_hasAttendees e
  rw [hyes, hno, hne]
  exact ⟨rfl, rfl⟩

/-- The domain ends with a final sigma, both in the address and by itself. -/
theorem attendee_terms_agree_athens :
    let e : Event := { attendees := ["ΑΝΝΑ@ΑΘΗΝΑΣ@ΓΡ"] }
    let value := "'Αννα'@ΑΘΗΝΑΣ@γρ"
    (Query.only .email value).holds e = true ∧ (Query.only .attendees value).holds e = true ∧
      IsDomain (fold value) "αθηνας" ∧ (Query.only .domain "αθηνας").holds e = true ∧
      (Query.only .attendees "αθηνας").holds e = true ∧
      (Query.only .hasAttendees "yes").holds e = true ∧
      (Query.only .hasAttendees "no").holds e = false := by
  intro e value
  have hemail : (Query.only .email value).holds e = true := by decide +kernel
  have hdomain : IsDomain (fold value) "αθηνας" :=
    ⟨"αννα".toList, "@γρ".toList, by decide +kernel, by decide, by decide, by simp⟩
  obtain ⟨hpiece, -, -, hown, hany⟩ := attendee_terms_agree e value
  have hfound := hown "αθηνας" hdomain hemail
  exact ⟨hemail, hpiece hemail, hdomain, hfound, (attendee_terms_agree e _).2.1 hfound,
    hany .email (by simp) hemail⟩

/-! ## The set of the addresses -/

/-- The event with other attendees. -/
def withAttendees (e : Event) (attendees : List String) : Event := { e with attendees }

variable {e : Event} {xs ys : List String}

theorem property_mono {p : Property} (hp : p ≠ .hasAttendees) (hsub : ∀ a ∈ xs, a ∈ ys)
    {value : String} (h : p.holds value (e.withAttendees xs) = true) :
    p.holds value (e.withAttendees ys) = true := by
  cases p with
  | attendees =>
    obtain ⟨a, ha, hvalue⟩ := List.any_eq_true.mp h
    exact List.any_eq_true.mpr ⟨a, hsub a ha, hvalue⟩
  | email =>
    obtain ⟨a, ha, hvalue⟩ := List.any_eq_true.mp h
    exact List.any_eq_true.mpr ⟨a, hsub a ha, hvalue⟩
  | domain =>
    obtain ⟨d, hd, hvalue⟩ := List.any_eq_true.mp h
    obtain ⟨a, ha, hdomain⟩ := List.mem_filterMap.mp hd
    exact List.any_eq_true.mpr ⟨d, List.mem_filterMap.mpr ⟨a, hsub a ha, hdomain⟩, hvalue⟩
  | hasAttendees => exact absurd rfl hp
  | _ => exact h

theorem property_congr (hsame : ∀ a, a ∈ xs ↔ a ∈ ys) (p : Property) (value : String) :
    p.holds value (e.withAttendees xs) = p.holds value (e.withAttendees ys) := by
  by_cases hp : p = .hasAttendees
  · have hempty : xs.isEmpty = ys.isEmpty := by
      rw [Bool.eq_iff_iff, List.isEmpty_iff, List.isEmpty_iff, List.eq_nil_iff_forall_not_mem,
        List.eq_nil_iff_forall_not_mem]
      simp only [hsame]
    rw [hp]
    simp only [Property.holds, withAttendees, hempty]
  · rw [Bool.eq_iff_iff]
    exact ⟨property_mono hp fun a => (hsame a).mp, property_mono hp fun a => (hsame a).mpr⟩

/-- Whether a query matches depends on the attendees as a set. If it does not ask whether there are
any, then it matches with more attendees as well. -/
theorem attendees_as_set (q : Query) (e : Event) (xs ys : List String) :
    ((∀ a, a ∈ xs ↔ a ∈ ys) →
        q.holds (e.withAttendees xs) = q.holds (e.withAttendees ys)) ∧
      ((∀ t ∈ q.terms, t.property ≠ "has-attendees") → (∀ a ∈ xs, a ∈ ys) →
        q.holds (e.withAttendees xs) = true → q.holds (e.withAttendees ys) = true) := by
  refine ⟨?_, ?_⟩
  · intro hsame
    refine q.holds_congr fun t _ => ?_
    rw [Bool.eq_iff_iff, Term.holds_iff, Term.holds_iff]
    simp only [property_congr hsame]
  · intro hterms hsub
    refine q.holds_mono fun t ht => ?_
    rw [Term.holds_iff, Term.holds_iff]
    rintro ⟨p, hp, h⟩
    refine ⟨p, hp, property_mono ?_ hsub h⟩
    rintro rfl
    exact hterms t ht hp.symm

/-- One more address, and the addresses in another order and twice. -/
theorem attendees_as_set_more :
    let e : Event := { title := some "Sync" }
    let q : Query := ⟨[.term ⟨"title", "sync"⟩, .anyOf [.term ⟨"domain", "acme.com"⟩]]⟩
    let xs := ["ann@acme.com", "bob@else.org"]
    let ys := ["bob@else.org", "ann@acme.com", "ann@acme.com"]
    (∀ a, a ∈ xs ↔ a ∈ ys) ∧ q.holds (e.withAttendees xs) = q.holds (e.withAttendees ys) ∧
      (∀ t ∈ q.terms, t.property ≠ "has-attendees") ∧ (∀ a ∈ ["ann@acme.com"], a ∈ ys) ∧
      q.holds (e.withAttendees ["ann@acme.com"]) = true ∧
      q.holds (e.withAttendees ys) = true := by
  intro e q xs ys
  have hsame : ∀ a, a ∈ xs ↔ a ∈ ys := by
    intro a
    simp only [xs, ys, List.mem_cons, List.not_mem_nil, or_false]
    tauto
  have hterms : ∀ t ∈ q.terms, t.property ≠ "has-attendees" := by decide
  have hsub : ∀ a ∈ ["ann@acme.com"], a ∈ ys := by simp [ys]
  have hholds : q.holds (e.withAttendees ["ann@acme.com"]) = true := by decide +kernel
  exact ⟨hsame, (attendees_as_set q e xs ys).1 hsame, hterms, hsub, hholds,
    (attendees_as_set q e _ ys).2 hterms hsub hholds⟩

end Event

end CalendarRules
