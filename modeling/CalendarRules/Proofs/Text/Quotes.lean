import CalendarRules.Proofs.Text.Fold

/-!
# What quote marks change

Quote marks are taken out of a text after it is put in lower case, so they are there when a capital
sigma looks for the letters next to it. That is all they can change. Two texts that are equal
without their quote marks fold alike exactly if their sigmas become the same, one by one. An
apostrophe hides no letter from a sigma. A double mark does, but that counts only inside a word.
-/

namespace CalendarRules.Text

def stripQuotes (cs : List Char) : List Char := cs.filter (!isQuoteMark ·)

theorem stripQuotes_of_mark {c : Char} (hc : isQuoteMark c = true) (cs : List Char) :
    stripQuotes (c :: cs) = stripQuotes cs :=
  List.filter_cons_of_neg (by simp [hc])

theorem stripQuotes_of_not_mark {c : Char} (hc : isQuoteMark c = false) (cs : List Char) :
    stripQuotes (c :: cs) = c :: stripQuotes cs :=
  List.filter_cons_of_pos (by simp [hc])

theorem stripQuotes_sigma (cs : List Char) : stripQuotes ('Σ' :: cs) = 'Σ' :: stripQuotes cs :=
  stripQuotes_of_not_mark (by decide) cs

/-- The small sigmas that the capital ones of `cs` become, in their order, after the characters of
`before`, the nearest first. -/
def smallSigmas (before : List Char) : List Char → List Char
  | [] => []
  | c :: cs => (if c = 'Σ' then [lowerSigma before cs] else []) ++ smallSigmas (c :: before) cs

/-! ## A folded text is made of its letters and its small sigmas -/

/-- The lower-case form of `cs` with these characters in the places of its capital sigmas. -/
def lowerWith (sigmas : List Char) : List Char → List Char
  | [] => []
  | c :: cs =>
    if c = 'Σ' then sigmas.take 1 ++ lowerWith (sigmas.drop 1) cs
    else lowerChar c ++ lowerWith sigmas cs

theorem length_smallSigmas (before cs : List Char) :
    (smallSigmas before cs).length = (stripQuotes cs).count 'Σ' := by
  induction cs generalizing before with
  | nil => rfl
  | cons c cs ih =>
    by_cases hc : c = 'Σ'
    · simp [smallSigmas, hc, stripQuotes_sigma, ih]
    · cases hmark : isQuoteMark c with
      | true => simp [smallSigmas, hc, stripQuotes_of_mark hmark, ih]
      | false => simp [smallSigmas, hc, stripQuotes_of_not_mark hmark, ih]

theorem foldIn_eq_lowerWith (before cs : List Char) :
    foldIn before [] cs = lowerWith (smallSigmas before cs) (stripQuotes cs) := by
  induction cs generalizing before with
  | nil => rfl
  | cons c cs ih =>
    rw [foldIn, ih, filter_lowerChar]
    by_cases hc : c = 'Σ'
    · simp [smallSigmas, lowerWith, hc, stripQuotes_sigma]
    · cases hmark : isQuoteMark c with
      | true => simp [smallSigmas, hc, stripQuotes_of_mark hmark]
      | false => simp [smallSigmas, lowerWith, hc, stripQuotes_of_not_mark hmark]

theorem lowerWith_inj {cs sigmas sigmas' : List Char} (h : sigmas.length = cs.count 'Σ')
    (h' : sigmas'.length = cs.count 'Σ') :
    lowerWith sigmas cs = lowerWith sigmas' cs ↔ sigmas = sigmas' := by
  induction cs generalizing sigmas sigmas' with
  | nil => simp_all [lowerWith]
  | cons c cs ih =>
    by_cases hc : c = 'Σ'
    · subst hc
      rw [List.count_cons_self] at h h'
      obtain ⟨s, ss, rfl⟩ := List.exists_cons_of_length_eq_add_one h
      obtain ⟨s', ss', rfl⟩ := List.exists_cons_of_length_eq_add_one h'
      simp only [List.length_cons, Nat.add_right_cancel_iff] at h h'
      simp [lowerWith, ih h h']
    · rw [List.count_cons_of_ne hc] at h h'
      simp [lowerWith, hc, ih h h']

/-- Texts that are equal without their quote marks fold alike if and only if their capital sigmas
become the same small ones. -/
theorem foldChars_eq_iff {cs ds : List Char} (h : stripQuotes cs = stripQuotes ds) :
    foldChars cs = foldChars ds ↔ smallSigmas [] cs = smallSigmas [] ds := by
  have hcs := length_smallSigmas [] cs
  have hds := length_smallSigmas [] ds
  rw [foldChars_eq_foldIn, foldChars_eq_foldIn, foldIn_eq_lowerWith, foldIn_eq_lowerWith]
  rw [h] at hcs ⊢
  exact lowerWith_inj hcs hds

/-! ## Texts whose quote marks change nothing -/

/-- Equal but for quote marks, which change no sigma. -/
structure Alike (s t : String) : Prop where
  stripped : stripQuotes s.toList = stripQuotes t.toList
  sigmas : smallSigmas [] s.toList = smallSigmas [] t.toList

theorem Alike.foldChars_eq {s t : String} (h : Alike s t) :
    foldChars s.toList = foldChars t.toList := (foldChars_eq_iff h.stripped).mpr h.sigmas

theorem alike_of_no_sigma {s t : String} (h : stripQuotes s.toList = stripQuotes t.toList)
    (hsigma : 'Σ' ∉ s.toList) : Alike s t := by
  have hcount : (stripQuotes s.toList).count 'Σ' = 0 :=
    List.count_eq_zero.mpr fun hmem => hsigma (List.mem_filter.mp hmem).1
  have hs := length_smallSigmas [] s.toList
  have ht := length_smallSigmas [] t.toList
  rw [← h] at ht
  rw [hcount, List.length_eq_zero_iff] at hs ht
  exact ⟨h, hs.trans ht.symm⟩

theorem smallSigmas_filter {p : Char → Bool} (hp : p 'Σ' = true) (before : List Char)
    {cs : List Char} (h : ∀ x y, cs = x ++ 'Σ' :: y → lowerSigma (x.reverse ++ before) y =
      lowerSigma ((x.reverse ++ before).filter p) (y.filter p)) :
    smallSigmas before cs = smallSigmas (before.filter p) (cs.filter p) := by
  induction cs generalizing before with
  | nil => rfl
  | cons c cs ih =>
    obtain ⟨hfirst, hother⟩ := (forall_sigma_cons ..).mp h
    simp only [List.reverse_nil, List.reverse_cons, List.append_assoc, List.nil_append,
      List.singleton_append] at hfirst hother
    rw [smallSigmas, ih _ hother]
    cases hc : p c with
    | true =>
      rw [List.filter_cons_of_pos hc, List.filter_cons_of_pos hc, smallSigmas]
      split
      · rename_i hsigma
        rw [hfirst hsigma]
      · rfl
    | false =>
      -- What is left out is no sigma, so the sigmas stay one for one.
      have hsigma : c ≠ 'Σ' := by
        rintro rfl
        rw [hp] at hc
        cases hc
      rw [List.filter_cons_of_neg (by simp [hc]), List.filter_cons_of_neg (by simp [hc]),
        if_neg hsigma, List.nil_append]

/-! ### Apostrophes -/

def isApostrophe (c : Char) : Bool := c == '\'' || c == '‘' || c == '’'

def stripApostrophes (cs : List Char) : List Char := cs.filter (!isApostrophe ·)

theorem isCaseIgnorable_of_isApostrophe {c : Char} (hc : isApostrophe c = true) :
    isCaseIgnorable c = true ∧ isQuoteMark c = true := by
  simp only [isApostrophe, Bool.or_eq_true, beq_iff_eq] at hc
  rcases hc with (rfl | rfl) | rfl <;> decide +kernel

theorem startsCased_stripApostrophes (cs : List Char) :
    startsCased (stripApostrophes cs) = startsCased cs := by
  unfold stripApostrophes
  induction cs with
  | nil => rfl
  | cons c cs ih =>
    cases hc : isApostrophe c with
    | true =>
      rw [List.filter_cons_of_neg (by simp [hc]), ih, startsCased_cons,
        if_pos (isCaseIgnorable_of_isApostrophe hc).1]
    | false =>
      rw [List.filter_cons_of_pos (by simp [hc]), startsCased_cons, startsCased_cons, ih]

theorem stripQuotes_stripApostrophes (cs : List Char) :
    stripQuotes (stripApostrophes cs) = stripQuotes cs := by
  rw [stripQuotes, stripApostrophes, List.filter_filter, stripQuotes]
  refine List.filter_congr fun c _ => ?_
  cases hc : isApostrophe c with
  | true => simp [(isCaseIgnorable_of_isApostrophe hc).2]
  | false => simp

theorem smallSigmas_stripApostrophes (cs : List Char) :
    smallSigmas [] (stripApostrophes cs) = smallSigmas [] cs := by
  refine (smallSigmas_filter (by decide) [] fun x y _ => ?_).symm
  have hcased (ds : List Char) : startsCased (ds.filter (!isApostrophe ·)) = startsCased ds :=
    startsCased_stripApostrophes ds
  rw [lowerSigma, lowerSigma, hcased, hcased]

theorem alike_of_apostrophes {s t : String}
    (h : stripApostrophes s.toList = stripApostrophes t.toList) : Alike s t := by
  constructor
  · rw [← stripQuotes_stripApostrophes, h, stripQuotes_stripApostrophes]
  · rw [← smallSigmas_stripApostrophes, h, smallSigmas_stripApostrophes]

/-! ### Double marks -/

def isDoubleMark (c : Char) : Bool := c == '"' || c == '“' || c == '”'

/-- No double mark stands inside a word: there are no letters next to it on both sides when the
quote marks are out of the way. -/
def QuotedAtEdges (cs : List Char) : Prop :=
  ∀ x q y, cs = x ++ q :: y → isDoubleMark q = true →
    startsCased (stripQuotes x.reverse) = false ∨ startsCased (stripQuotes y) = false

instance (cs : List Char) : Decidable (QuotedAtEdges cs) :=
  decidable_of_iff (∀ i : Fin cs.length, isDoubleMark cs[i] = true →
      startsCased (stripQuotes (cs.take i).reverse) = false ∨
        startsCased (stripQuotes (cs.drop (i + 1))) = false)
    ⟨fun h x q y hcs hq => by subst hcs; simpa [hq] using h ⟨x.length, by simp⟩,
      fun h i hq => h _ _ _ (by simp) hq⟩

theorem kinds_of_isQuoteMark {c : Char} (hc : isQuoteMark c = true) :
    isCased c = false ∧ (isCaseIgnorable c = true ∨ isDoubleMark c = true) := by
  simp only [isQuoteMark, Bool.or_eq_true, beq_iff_eq] at hc
  rcases hc with ((((rfl | rfl) | rfl) | rfl) | rfl) | rfl <;> decide +kernel

theorem startsCased_stripQuotes {cs : List Char} (h : startsCased cs = true) :
    startsCased (stripQuotes cs) = true := by
  induction cs with
  | nil => exact h
  | cons c cs ih =>
    rw [startsCased_cons] at h
    cases hmark : isQuoteMark c with
    | true =>
      rw [stripQuotes_of_mark hmark]
      split at h
      · exact ih h
      · rw [(kinds_of_isQuoteMark hmark).1] at h
        cases h
    | false =>
      rw [stripQuotes_of_not_mark hmark, startsCased_cons]
      split at h
      · rename_i hignorable
        rw [if_pos hignorable, ih h]
      · rename_i hignorable
        rw [if_neg hignorable, h]

theorem exists_mark_of_startsCased {cs : List Char} (h : startsCased cs = false)
    (hstrip : startsCased (stripQuotes cs) = true) :
    ∃ run q rest, cs = run ++ q :: rest ∧ isDoubleMark q = true ∧
      (∀ c ∈ run, isCaseIgnorable c = true) ∧ startsCased (stripQuotes rest) = true := by
  induction cs with
  | nil => cases hstrip
  | cons c cs ih =>
    rw [startsCased_cons] at h
    cases hignorable : isCaseIgnorable c with
    | true =>
      rw [hignorable, if_pos rfl] at h
      have hstrip : startsCased (stripQuotes cs) = true := by
        cases hmark : isQuoteMark c with
        | true => rwa [stripQuotes_of_mark hmark] at hstrip
        | false =>
          rwa [stripQuotes_of_not_mark hmark, startsCased_cons, if_pos hignorable] at hstrip
      obtain ⟨run, q, rest, rfl, hq, hrun, hrest⟩ := ih h hstrip
      exact ⟨c :: run, q, rest, rfl, hq, List.forall_mem_cons.mpr ⟨hignorable, hrun⟩, hrest⟩
    | false =>
      rw [hignorable, if_neg (by simp)] at h
      cases hmark : isQuoteMark c with
      | true =>
        rw [stripQuotes_of_mark hmark] at hstrip
        have hdouble := (kinds_of_isQuoteMark hmark).2
        rw [hignorable] at hdouble
        exact ⟨[], c, cs, rfl, by simpa using hdouble, by simp, hstrip⟩
      | false =>
        rw [stripQuotes_of_not_mark hmark, startsCased_cons, hignorable, if_neg (by simp), h]
          at hstrip
        cases hstrip

theorem startsCased_stripQuotes_eq {cs : List Char}
    (h : ∀ run q rest, cs = run ++ q :: rest → isDoubleMark q = true →
      (∀ c ∈ run, isCaseIgnorable c = true) → startsCased (stripQuotes rest) = false) :
    startsCased (stripQuotes cs) = startsCased cs := by
  cases hcased : startsCased cs with
  | true => exact startsCased_stripQuotes hcased
  | false =>
    rw [← Bool.not_eq_true]
    intro hstrip
    obtain ⟨run, q, rest, hcs, hq, hrun, hrest⟩ := exists_mark_of_startsCased hcased hstrip
    rw [h run q rest hcs hq hrun] at hrest
    cases hrest

theorem startsCased_sigma {run : List Char} (hrun : ∀ c ∈ run, isCaseIgnorable c = true)
    (cs : List Char) : startsCased (stripQuotes (run ++ 'Σ' :: cs)) = true := by
  refine startsCased_stripQuotes ?_
  rw [startsCased, List.dropWhile_append_of_pos hrun, ← startsCased, startsCased_cons,
    if_neg (by decide +kernel)]
  decide +kernel

theorem smallSigmas_stripQuotes {cs : List Char} (h : QuotedAtEdges cs) :
    smallSigmas [] (stripQuotes cs) = smallSigmas [] cs := by
  refine (smallSigmas_filter (by decide) [] fun x y hxy => ?_).symm
  -- A mark that hides a letter from the sigma has the sigma on its other side.
  have hbefore : startsCased (stripQuotes x.reverse) = startsCased x.reverse := by
    refine startsCased_stripQuotes_eq fun run q rest hrev hq hrun => ?_
    have hx : x = rest.reverse ++ q :: run.reverse := by
      rw [← List.reverse_reverse x, hrev]
      simp
    have hedge := h rest.reverse q (run.reverse ++ 'Σ' :: y) (by simp [hxy, hx]) hq
    rw [startsCased_sigma (by simpa using hrun), List.reverse_reverse] at hedge
    simpa using hedge
  have hafter : startsCased (stripQuotes y) = startsCased y := by
    refine startsCased_stripQuotes_eq fun run q rest hy hq hrun => ?_
    have hedge := h (x ++ 'Σ' :: run) q rest (by simp [hxy, hy]) hq
    have hsigma : startsCased (stripQuotes (run.reverse ++ 'Σ' :: x.reverse)) = true :=
      startsCased_sigma (by simpa using hrun) _
    simpa [hsigma] using hedge
  rw [List.append_nil, lowerSigma, lowerSigma, ← stripQuotes, ← stripQuotes, hbefore, hafter]

theorem alike_of_edges {s t : String} (h : stripQuotes s.toList = stripQuotes t.toList)
    (hs : QuotedAtEdges s.toList) (ht : QuotedAtEdges t.toList) : Alike s t := by
  refine ⟨h, ?_⟩
  rw [← smallSigmas_stripQuotes hs, h, smallSigmas_stripQuotes ht]

end CalendarRules.Text
