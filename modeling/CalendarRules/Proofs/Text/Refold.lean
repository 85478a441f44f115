import CalendarRules.Proofs.Text.Fold

/-!
# Folding what is folded

The lower-case partner of a letter has no partner of its own. So text in lower case stays as it is
in lower case, and folded text stays as it is when it is folded. And no sigma looks beyond an `@`,
so the parts of an address fold by themselves.
-/

namespace CalendarRules.Text

/-! ## Texts in lower case -/

theorem lowerChar_of_mem_lowerChar {c d : Char} (hd : d ∈ lowerChar c) : lowerChar d = [d] := by
  unfold lowerChar at hd
  split at hd
  · rename_i hascii
    rw [List.mem_singleton.mp hd]
    exact lowerChar_toLower hascii
  · rename_i hbeyond
    split at hd
    · simp only [List.mem_cons, List.not_mem_nil, or_false] at hd
      rcases hd with rfl | rfl <;> exact lowerChar_fixed (by decide)
    · rename_i hdotted
      split at hd
      · rename_i run hfind
        have hcovers : run.covers c.toNat = true := by simpa using List.find?_some hfind
        rw [List.mem_singleton.mp hd]
        exact lowerChar_target (List.mem_of_find?_eq_some hfind) (by omega) hcovers
      · rename_i hnone
        rw [List.mem_singleton.mp hd]
        unfold lowerChar
        rw [if_neg hbeyond, if_neg hdotted, hnone]

theorem lowerChar_of_mem_lowerFrom {before cs : List Char} {d : Char}
    (hd : d ∈ lowerFrom before cs) : lowerChar d = [d] := by
  induction cs generalizing before with
  | nil => cases hd
  | cons c cs ih =>
    rw [lowerFrom, List.mem_append] at hd
    rcases hd with hd | hd
    · split at hd
      · rw [List.mem_singleton.mp hd]
        unfold lowerSigma
        split <;> exact lowerChar_fixed (by decide)
      · exact lowerChar_of_mem_lowerChar hd
    · exact ih hd

theorem lowerFrom_eq_self {cs : List Char} (h : ∀ c ∈ cs, lowerChar c = [c]) (before : List Char) :
    lowerFrom before cs = cs := by
  induction cs generalizing before with
  | nil => rfl
  | cons c cs ih =>
    obtain ⟨hc, hcs⟩ := List.forall_mem_cons.mp h
    have hsigma : c ≠ 'Σ' := by
      rintro rfl
      exact absurd hc (by decide +kernel)
    rw [lowerFrom, if_neg hsigma, hc, ih hcs]
    rfl

theorem fold_eq_self {cs : List Char} (h : ∀ c ∈ cs, lowerChar c = [c] ∧ isQuoteMark c = false) :
    fold (String.ofList cs) = String.ofList cs := by
  have hlower := lowerFrom_eq_self (fun c hc => (h c hc).1) []
  rw [fold, String.toList_ofList, foldChars, hlower, List.filter_eq_self.mpr]
  intro c hc
  rw [(h c hc).2]
  rfl

theorem unquoted_fold (s : String) : Unquoted (fold s) := by
  intro c hc
  rw [fold, String.toList_ofList, foldChars, List.mem_filter] at hc
  simpa using hc.2

theorem fold_fold (s : String) : fold (fold s) = fold s := by
  have hlower : lower (fold s) = fold s := by
    rw [lower, fold, String.toList_ofList]
    congr 1
    refine lowerFrom_eq_self (fun c hc => ?_) []
    exact lowerChar_of_mem_lowerFrom (List.mem_filter.mp hc).1
  rw [(fold_eq_lower_iff _).mpr (unquoted_fold s), hlower]

theorem lower_eq_fold_iff (s value : String) :
    lower s = fold value ↔ Unquoted s ∧ fold s = fold value := by
  constructor
  · intro h
    have hquotes : Unquoted s := by
      have hfolded := unquoted_fold value
      rw [← h, Unquoted, lower, String.toList_ofList] at hfolded
      exact (unquoted_lowerFrom_iff [] s.toList).mp hfolded
    exact ⟨hquotes, ((fold_eq_lower_iff s).mpr hquotes).trans h⟩
  · rintro ⟨hquotes, h⟩
    rw [← (fold_eq_lower_iff s).mpr hquotes, h]

/-! ## The parts of an address -/

theorem at_mem_lowerChar_iff (c : Char) : '@' ∈ lowerChar c ↔ c = '@' := by
  constructor
  · intro h
    unfold lowerChar at h
    split at h
    · rename_i hascii
      have hlower := toNat_toLower c
      rw [← List.mem_singleton.mp h] at hlower
      have hat : '@'.toNat = 0x40 := rfl
      rw [← Char.toNat_inj]
      split at hlower <;> omega
    · split at h
      · exact absurd h (by decide)
      · split at h
        · rename_i run hfind
          have hcovers : run.covers c.toNat = true := by simpa using List.find?_some hfind
          have htarget := target_of_covers (List.mem_of_find?_eq_some hfind) hcovers (by omega)
          have hown : ¬IsOwn '@' := (List.mem_singleton.mp h) ▸ not_isOwn_ofNat htarget
          exact absurd (by decide) hown
        · exact (List.mem_singleton.mp h).symm
  · rintro rfl
    decide

theorem at_mem_foldIn_iff (before after cs : List Char) :
    '@' ∈ foldIn before after cs ↔ '@' ∈ cs := by
  induction cs generalizing before with
  | nil => rfl
  | cons c cs ih =>
    have hmark : isQuoteMark '@' = false := by decide
    rw [foldIn, List.mem_append, ih, List.mem_cons]
    refine or_congr_left ?_
    split
    · rename_i hsigma
      rw [hsigma]
      unfold lowerSigma
      split <;> decide
    · simp [List.mem_filter, hmark, at_mem_lowerChar_iff, eq_comm]

theorem foldIn_at (before after cs : List Char) :
    foldIn before after ('@' :: cs) = '@' :: foldIn ('@' :: before) after cs := by
  have hat : lowerChar '@' = ['@'] := by decide
  simp [foldIn, hat, isQuoteMark]

theorem startsCased_at (cs : List Char) : startsCased ('@' :: cs) = false := by
  rw [startsCased_cons, if_neg (by decide +kernel)]
  decide +kernel

theorem sigmasStay_between {before after : List Char} (hbefore : ∀ c ∈ before.head?, c = '@')
    (hafter : ∀ c ∈ after.head?, c = '@') (piece : List Char) : SigmasStay before piece after := by
  have hend {cs : List Char} (h : ∀ c ∈ cs.head?, c = '@') : startsCased cs = false := by
    cases cs with
    | nil => rfl
    | cons c cs =>
      obtain rfl : c = '@' := h c rfl
      exact startsCased_at cs
  exact sigmasStay_of_not_startsCased (hend hbefore) (hend hafter) piece

end CalendarRules.Text
