import CalendarRules.Proofs.Text.Lower

/-!
# Folding, character by character and piece by piece

Lower case neither makes nor loses a quote mark. And a text is put in lower case character by
character, but for a capital sigma, which looks at the letters on both of its sides. So a piece of a
text folds by itself to what it folds to in its place, unless one of its sigmas can tell the
difference.
-/

namespace CalendarRules.Text

/-! ## Quote marks -/

theorem toNat_mem_quoteMarks {c : Char} (hc : isQuoteMark c = true) : c.toNat ∈ quoteMarks := by
  simp only [isQuoteMark, Bool.or_eq_true, beq_iff_eq] at hc
  rcases hc with ((((rfl | rfl) | rfl) | rfl) | rfl) | rfl <;> decide

theorem not_isQuoteMark_target {run : ShiftRun} (hrun : run ∈ lowerRuns) {n : Nat}
    (hcovers : run.covers n = true) : isQuoteMark (Char.ofNat (run.target n)) = false := by
  rw [← Bool.not_eq_true]
  intro hquote
  have hmem := toNat_mem_quoteMarks hquote
  rcases toNat_ofNat_cases (run.target n) with hsame | hzero
  · rw [hsame] at hmem
    exact (target_apart hrun hcovers).2 hmem
  · rw [hzero] at hmem
    exact absurd hmem (by decide)

theorem not_isQuoteMark_toLower {c : Char} (hc : isQuoteMark c = false) :
    isQuoteMark c.toLower = false := by
  rw [← Bool.not_eq_true]
  intro hquote
  have hmem := toNat_mem_quoteMarks hquote
  have hlower := toNat_toLower c
  have hsame : c.toLower = c := by
    simp only [quoteMarks, List.mem_cons, List.not_mem_nil, or_false] at hmem
    rw [← Char.toNat_inj]
    split at hlower <;> omega
  rw [hsame, hc] at hquote
  cases hquote

theorem lowerChar_of_isDigit {c : Char} (hc : c.isDigit = true) :
    lowerChar c = [c] ∧ isQuoteMark c = false := by
  have hbounds : 48 ≤ c.toNat ∧ c.toNat ≤ 57 := Char.isDigit_iff_toNat.mp hc
  constructor
  · have hsame : c.toLower = c := by rw [← Char.toNat_inj, toNat_toLower, if_neg (by omega)]
    rw [lowerChar_ascii (by omega), hsame]
  · rw [← Bool.not_eq_true]
    intro hquote
    have hmem := toNat_mem_quoteMarks hquote
    simp only [quoteMarks, List.mem_cons, List.not_mem_nil, or_false] at hmem
    omega

theorem lowerChar_of_isQuoteMark {c : Char} (hc : isQuoteMark c = true) : lowerChar c = [c] := by
  simp only [isQuoteMark, Bool.or_eq_true, beq_iff_eq] at hc
  rcases hc with ((((rfl | rfl) | rfl) | rfl) | rfl) | rfl <;> exact lowerChar_fixed (by decide)

theorem not_isQuoteMark_of_mem_lowerChar {c : Char} (hc : isQuoteMark c = false) :
    ∀ d ∈ lowerChar c, isQuoteMark d = false := by
  unfold lowerChar
  split
  · rename_i hascii
    simpa using not_isQuoteMark_toLower hc
  · split
    · intro d hd
      simp only [List.mem_cons, List.not_mem_nil, or_false] at hd
      rcases hd with rfl | rfl <;> decide
    · split
      · rename_i run hfind
        have hcovers : run.covers c.toNat = true := by simpa using List.find?_some hfind
        simpa using not_isQuoteMark_target (List.mem_of_find?_eq_some hfind) hcovers
      · simpa using hc

theorem foldChars_ascii {cs : List Char} (hcs : ∀ c ∈ cs, c.toNat < 0x80) :
    foldChars cs = (cs.map Char.toLower).filter (!isQuoteMark ·) := by
  rw [foldChars, lowerFrom_ascii hcs]

theorem lowerChar_ne_nil (c : Char) : lowerChar c ≠ [] := by
  unfold lowerChar
  split
  · simp
  · split
    · simp
    · split <;> simp

theorem filter_lowerChar (c : Char) :
    (lowerChar c).filter (!isQuoteMark ·) = if isQuoteMark c then [] else lowerChar c := by
  cases hc : isQuoteMark c with
  | true => simp [lowerChar_of_isQuoteMark hc, hc]
  | false =>
    refine List.filter_eq_self.mpr fun d hd => ?_
    rw [not_isQuoteMark_of_mem_lowerChar hc d hd]
    rfl

theorem filter_lowerChar_eq_nil_iff (c : Char) :
    (lowerChar c).filter (!isQuoteMark ·) = [] ↔ isQuoteMark c = true := by
  rw [filter_lowerChar]
  split <;> simp [*, lowerChar_ne_nil]

theorem unquoted_lowerChar_iff (c : Char) :
    (∀ d ∈ lowerChar c, isQuoteMark d = false) ↔ isQuoteMark c = false := by
  cases hc : isQuoteMark c with
  | true => simp [lowerChar_of_isQuoteMark hc, hc]
  | false => exact iff_of_true (not_isQuoteMark_of_mem_lowerChar hc) rfl

theorem not_isQuoteMark_lowerSigma (before after : List Char) :
    isQuoteMark (lowerSigma before after) = false := by
  unfold lowerSigma
  split <;> decide

theorem unquoted_lowerFrom_iff (before cs : List Char) :
    (∀ d ∈ lowerFrom before cs, isQuoteMark d = false) ↔ ∀ c ∈ cs, isQuoteMark c = false := by
  induction cs generalizing before with
  | nil => rfl
  | cons c cs ih =>
    rw [lowerFrom, List.forall_mem_append, ih, List.forall_mem_cons]
    split
    · rename_i hsigma
      have hmark : isQuoteMark c = false := by
        rw [hsigma]
        decide
      simp [not_isQuoteMark_lowerSigma, hmark]
    · rw [unquoted_lowerChar_iff]

/-- The text has no quote marks. -/
def Unquoted (s : String) : Prop := ∀ c ∈ s.toList, isQuoteMark c = false

instance (s : String) : Decidable (Unquoted s) :=
  decidable_of_iff (s.toList.all (!isQuoteMark ·) = true) (by simp [Unquoted])

theorem fold_eq_lower_iff (s : String) : fold s = lower s ↔ Unquoted s := by
  rw [fold, lower, foldChars, String.ofList_inj, List.filter_eq_self]
  simp only [Bool.not_eq_true']
  exact unquoted_lowerFrom_iff [] s.toList

theorem exists_lower_eq_fold_iff {P : String → Prop} {a : String} (ha : P a) :
    (∃ b, P b ∧ lower b = fold a) ↔ Unquoted a ∨ ∃ b, P b ∧ b ≠ a ∧ lower b = fold a := by
  constructor
  · rintro ⟨b, hb, hlower⟩
    by_cases hba : b = a
    · subst hba
      exact .inl ((fold_eq_lower_iff b).mp hlower.symm)
    · exact .inr ⟨b, hb, hba, hlower⟩
  · rintro (hquotes | ⟨b, hb, -, hlower⟩)
    · exact ⟨a, ha, ((fold_eq_lower_iff a).mpr hquotes).symm⟩
    · exact ⟨b, hb, hlower⟩

/-! ## Pieces -/

/-- The folded form of a piece in its place, with the characters before it, the nearest first, and
those after it. -/
def foldIn (before after : List Char) : List Char → List Char
  | [] => []
  | c :: cs =>
    (if c = 'Σ' then [lowerSigma before (cs ++ after)]
      else (lowerChar c).filter (!isQuoteMark ·)) ++ foldIn (c :: before) after cs

theorem foldIn_eq_filter (before cs : List Char) :
    foldIn before [] cs = (lowerFrom before cs).filter (!isQuoteMark ·) := by
  induction cs generalizing before with
  | nil => rfl
  | cons c cs ih =>
    rw [foldIn, lowerFrom, List.filter_append, ih, List.append_nil]
    split
    · rw [List.filter_cons_of_pos (by rw [not_isQuoteMark_lowerSigma]; rfl), List.filter_nil]
    · rfl

theorem foldChars_eq_foldIn (cs : List Char) : foldChars cs = foldIn [] [] cs :=
  (foldIn_eq_filter [] cs).symm

theorem foldIn_append (before after cs ds : List Char) :
    foldIn before after (cs ++ ds) =
      foldIn before (ds ++ after) cs ++ foldIn (cs.reverse ++ before) after ds := by
  induction cs generalizing before with
  | nil => rfl
  | cons c cs ih =>
    simp only [List.cons_append, foldIn, ih, List.append_assoc, List.reverse_cons,
      List.nil_append]

theorem foldIn_eq_nil_iff (before after cs : List Char) :
    foldIn before after cs = [] ↔ ∀ c ∈ cs, isQuoteMark c = true := by
  induction cs generalizing before with
  | nil => simp [foldIn]
  | cons c cs ih =>
    rw [foldIn, List.append_eq_nil_iff, ih, List.forall_mem_cons]
    split
    · rename_i hsigma
      have hmark : isQuoteMark c ≠ true := by
        rw [hsigma]
        decide
      simp [hmark]
    · rw [filter_lowerChar_eq_nil_iff]

theorem fold_eq_empty_iff (s : String) : fold s = "" ↔ ∀ c ∈ s.toList, isQuoteMark c = true := by
  rw [← foldIn_eq_nil_iff [] [], ← foldChars_eq_foldIn, fold, String.ofList_eq_empty_iff]

/-- Every capital sigma of the piece becomes the same small sigma by itself and in its place. -/
def SigmasStay (before piece after : List Char) : Prop :=
  ∀ x y, piece = x ++ 'Σ' :: y →
    lowerSigma (x.reverse ++ before) (y ++ after) = lowerSigma x.reverse y

theorem forall_sigma_cons (c : Char) (cs : List Char) (P : List Char → List Char → Prop) :
    (∀ x y, c :: cs = x ++ 'Σ' :: y → P x y) ↔
      (c = 'Σ' → P [] cs) ∧ ∀ x y, cs = x ++ 'Σ' :: y → P (c :: x) y := by
  constructor
  · intro h
    refine ⟨?_, ?_⟩
    · rintro rfl
      exact h [] cs rfl
    · rintro x y rfl
      exact h (c :: x) y rfl
  · rintro ⟨hfirst, hother⟩ x y hxy
    cases x with
    | nil =>
      obtain ⟨rfl, rfl⟩ := List.cons.inj hxy
      exact hfirst rfl
    | cons d x =>
      obtain ⟨rfl, hcs⟩ := List.cons.inj hxy
      exact hother x y hcs

theorem foldIn_eq_iff (before before' after after' piece : List Char) :
    foldIn before after piece = foldIn before' after' piece ↔
      ∀ x y, piece = x ++ 'Σ' :: y →
        lowerSigma (x.reverse ++ before) (y ++ after) =
          lowerSigma (x.reverse ++ before') (y ++ after') := by
  induction piece generalizing before before' with
  | nil => simp [foldIn]
  | cons c cs ih =>
    rw [forall_sigma_cons, foldIn, foldIn]
    simp only [List.reverse_cons, List.append_assoc, List.reverse_nil, List.nil_append,
      List.cons_append]
    rw [← ih (c :: before) (c :: before')]
    by_cases hc : c = 'Σ' <;> simp [hc]

theorem foldIn_eq_foldChars_iff (before after piece : List Char) :
    foldIn before after piece = foldChars piece ↔ SigmasStay before piece after := by
  rw [foldChars_eq_foldIn, foldIn_eq_iff]
  simp only [List.append_nil, SigmasStay]

theorem sigmasStay_of_no_sigma {piece : List Char} (h : 'Σ' ∉ piece) (before after : List Char) :
    SigmasStay before piece after := by
  rintro x y rfl
  exact absurd (by simp) h

theorem startsCased_cons (c : Char) (cs : List Char) :
    startsCased (c :: cs) = if isCaseIgnorable c then startsCased cs else isCased c := by
  unfold startsCased
  rw [List.dropWhile_cons]
  by_cases hc : isCaseIgnorable c = true <;> simp [hc]

theorem startsCased_append (cs : List Char) {ds : List Char} (h : startsCased ds = false) :
    startsCased (cs ++ ds) = startsCased cs := by
  induction cs with
  | nil => exact h
  | cons c cs ih => rw [List.cons_append, startsCased_cons, startsCased_cons, ih]

theorem sigmasStay_of_not_startsCased {before after : List Char}
    (hbefore : startsCased before = false) (hafter : startsCased after = false)
    (piece : List Char) : SigmasStay before piece after := by
  intro x y _
  rw [lowerSigma, lowerSigma, startsCased_append _ hbefore, startsCased_append _ hafter]

end CalendarRules.Text
