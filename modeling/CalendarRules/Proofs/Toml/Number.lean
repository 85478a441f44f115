import CalendarRules.Proofs.Decimal.Digits
import CalendarRules.Toml.Read
import CalendarRules.Toml.Write
import Mathlib.Tactic.SplitIfs

/-!
# Whole numbers that are written in a document are read back

A number stands at the end of a line. The digits of its text are no date, no time of day and no
number with a fraction, because all that follows them is the line break.
-/

namespace CalendarRules.Toml

open Decimal

/-! ## Digits -/

theorem digitValue?_of_isDigit {c : Char} (h : c.isDigit = true) :
    digitValue? 10 c = some (c.toNat - '0'.toNat) := by
  have hc : ('0' ≤ c && c ≤ '9') = true := h
  have hlt : c.toNat - '0'.toNat < 10 := by
    have h9 : c.toNat ≤ 57 := (Bool.and_eq_true_iff.mp h).2 |> of_decide_eq_true
    have h0 : '0'.toNat = 48 := rfl
    omega
  simp only [digitValue?, hc, if_true, hlt]

theorem digitValue?_of_not_isDigit {c : Char} (h : c.isDigit = false) :
    digitValue? 10 c = none := by
  have hc : ('0' ≤ c && c ≤ '9') = false := h
  simp only [digitValue?, hc]
  split_ifs <;> first | omega | rfl

/-- The text goes on with something that is no part of a number. -/
def EndsDigits (rest : List Char) : Prop := ∀ c ∈ rest.head?, c.isDigit = false ∧ c ≠ '_'

theorem moreDigits_append {ds rest : List Char} (hds : ∀ c ∈ ds, c.isDigit = true)
    (hrest : EndsDigits rest) :
    moreDigits 10 (ds ++ rest) = (ds.map fun c => c.toNat - '0'.toNat, rest) := by
  induction ds with
  | nil =>
    cases rest with
    | nil => rfl
    | cons c rest =>
      obtain ⟨hc, hne⟩ := hrest c rfl
      rw [List.nil_append, moreDigits.eq_3 _ _ _ (by simp [hne]), digitValue?_of_not_isDigit hc]
      rfl
  | cons d ds ih =>
    obtain ⟨hd, hds⟩ := List.forall_mem_cons.mp hds
    have hne : d ≠ '_' := by rintro rfl; cases hd
    rw [List.cons_append, moreDigits.eq_3 _ _ _ (by simp [hne]), digitValue?_of_isDigit hd, ih hds]
    rfl

theorem readDigits?_append {d : Char} {ds rest : List Char}
    (hds : ∀ c ∈ d :: ds, c.isDigit = true) (hrest : EndsDigits rest) :
    readDigits? 10 (d :: ds ++ rest) = some ((d :: ds).map fun c => c.toNat - '0'.toNat, rest) := by
  obtain ⟨hd, hds⟩ := List.forall_mem_cons.mp hds
  simp [readDigits?, digitValue?_of_isDigit hd, moreDigits_append hds hrest]

theorem ofDigits_map (ds : List Char) :
    ofDigits 10 (ds.map fun c => c.toNat - '0'.toNat) = Nat.ofDigitChars 10 ds 0 := by
  rw [ofDigits, List.foldl_map]
  rfl

/-! ## Numbers without a sign -/

theorem readDecimal?_toDigits (n : Nat) {rest : List Char} (hrest : EndsDigits rest) :
    ∃ ds, readDecimal? (Nat.toDigits 10 n ++ rest) = some (ds, rest) ∧ ofDigits 10 ds = n := by
  obtain ⟨d, ds, hds, -⟩ := toDigits_eq_cons n
  by_cases hd : d = '0'
  · subst hd
    obtain rfl := eq_zero_of_head?_toDigits n (by rw [hds]; rfl)
    exact ⟨[0], rfl, rfl⟩
  · have hread : readDecimal? (Nat.toDigits 10 n ++ rest) = readDigits? 10 (d :: ds ++ rest) := by
      rw [hds]
      exact readDecimal?.eq_2 _ (by simp [hd])
    have hdigits : ∀ c ∈ d :: ds, c.isDigit = true :=
      hds ▸ fun _ => Nat.isDigit_of_mem_toDigits (by decide) (by decide)
    refine ⟨_, hread.trans (readDigits?_append hdigits hrest), ?_⟩
    rw [ofDigits_map, ← hds]
    exact Nat.ofDigitChars_toDigits (by omega) (by omega)

/-! ## Dates and times -/

theorem skipMark?_drop {ds : List Char} (hds : ∀ c ∈ ds, c.isDigit = true) (rest : List Char)
    {mark : Char} (hmark : mark.isDigit = false) (hne : mark ≠ '\n') (width : Nat)
    (hwidth : (((ds ++ '\n' :: rest).take width).filterMap (digitValue? 10)).length = width) :
    skipMark? mark ((ds ++ '\n' :: rest).drop width) = none := by
  -- What is left starts with a digit or with the end of the line, and neither is the mark.
  induction ds generalizing width with
  | nil =>
    cases width with
    | zero => simp [skipMark?, hne.symm]
    | succ width =>
      have hline : digitValue? 10 '\n' = none := digitValue?_of_not_isDigit rfl
      have hle := List.length_filterMap_le (digitValue? 10) (rest.take width)
      rw [List.length_take] at hle
      simp only [List.nil_append, List.take_succ_cons, List.filterMap_cons, hline] at hwidth
      omega
  | cons d ds ih =>
    obtain ⟨hd, hds⟩ := List.forall_mem_cons.mp hds
    cases width with
    | zero =>
      have hdm : d ≠ mark := by rintro rfl; simp [hd] at hmark
      simp [skipMark?, hdm]
    | succ width =>
      simp only [List.cons_append, List.take_succ_cons, List.filterMap_cons,
        digitValue?_of_isDigit hd, List.length_cons, Nat.add_right_cancel_iff] at hwidth
      exact ih hds width hwidth

theorem skipMark?_of_readFixed? {ds rest cs : List Char} (hds : ∀ c ∈ ds, c.isDigit = true)
    {width n : Nat} (h : readFixed? width (ds ++ '\n' :: rest) = some (n, cs)) {mark : Char}
    (hmark : mark.isDigit = false) (hne : mark ≠ '\n') : skipMark? mark cs = none := by
  unfold readFixed? at h
  simp only at h
  split_ifs at h with hwidth
  cases h
  exact skipMark?_drop hds rest hmark hne width hwidth

theorem readFixed?_cons {c : Char} (hc : c.isDigit = false) (width : Nat) (cs : List Char) :
    readFixed? (width + 1) (c :: cs) = none := by
  have hle := List.length_filterMap_le (digitValue? 10) (cs.take width)
  rw [List.length_take] at hle
  simp only [readFixed?, List.take_succ_cons, List.filterMap_cons, digitValue?_of_not_isDigit hc]
  rw [if_neg (by omega)]

theorem skipTime?_cons {c : Char} (hc : c.isDigit = false) (cs : List Char) :
    skipTime? (c :: cs) = none := by
  simp [skipTime?, skipDate?, skipClock?, readBounded?, readFixed?_cons hc]

theorem skipTime?_digits {ds : List Char} (hds : ∀ c ∈ ds, c.isDigit = true) (rest : List Char) :
    skipTime? (ds ++ '\n' :: rest) = none := by
  have hdate : skipDate? (ds ++ '\n' :: rest) = none := by
    unfold skipDate?
    cases h : readFixed? 4 (ds ++ '\n' :: rest) with
    | none => rfl
    | some found =>
      have hmark : skipMark? '-' found.2 = none := skipMark?_of_readFixed? hds h rfl (by decide)
      simp [hmark]
  have hclock : skipClock? (ds ++ '\n' :: rest) = none := by
    unfold skipClock? readBounded?
    cases h : readFixed? 2 (ds ++ '\n' :: rest) with
    | none => rfl
    | some found =>
      have hmark : skipMark? ':' found.2 = none := skipMark?_of_readFixed? hds h rfl (by decide)
      simp [hmark]
  simp [skipTime?, hdate, hclock]

/-! ## Numbers with a sign -/

theorem endsDigits_lineFeed (rest : List Char) : EndsDigits ('\n' :: rest) := by
  rintro c ⟨⟩
  decide

section Line

variable (n : Int) (rest : List Char)

theorem readSign_toString :
    readSign ((toString n).toList ++ '\n' :: rest) =
      (decide (n < 0), Nat.toDigits 10 n.natAbs ++ '\n' :: rest) := by
  rw [toList_toString]
  by_cases hn : n < 0
  · simp [hn, readSign]
  · obtain ⟨d, ds, hds, hd⟩ := toDigits_eq_cons n.natAbs
    simp only [hn, if_false, List.nil_append, hds, List.cons_append, decide_false]
    exact readSign.eq_3 _ (by rintro _ ⟨⟩; cases hd) (by rintro _ ⟨⟩; cases hd)

theorem skipTime?_toString : skipTime? ((toString n).toList ++ '\n' :: rest) = none := by
  have hdigits : ∀ c ∈ Nat.toDigits 10 n.natAbs, c.isDigit = true :=
    fun _ => Nat.isDigit_of_mem_toDigits (by decide) (by decide)
  rw [toList_toString]
  by_cases hn : n < 0
  · simp [hn, skipTime?_cons]
  · simp [hn, skipTime?_digits hdigits]

theorem toString_ne_marked {mark : Char} (hmark : mark ≠ '\n') (tail : List Char) :
    (toString n).toList ++ '\n' :: rest ≠ '0' :: mark :: tail := by
  intro h
  rw [toList_toString] at h
  by_cases hn : n < 0
  · simp [hn] at h
  · rw [if_neg hn, List.nil_append] at h
    obtain ⟨d, ds, hds, -⟩ := toDigits_eq_cons n.natAbs
    have hd : d = '0' := by simp_all
    have hzero := eq_zero_of_head?_toDigits n.natAbs (by rw [hds, hd]; rfl)
    rw [hzero] at h
    injection h with _ h
    injection h with h
    exact hmark h.symm

theorem skipReal?_toString : skipReal? ((toString n).toList ++ '\n' :: rest) = none := by
  obtain ⟨ds, hread, -⟩ := readDecimal?_toDigits n.natAbs (endsDigits_lineFeed rest)
  have hplaces : readPlaces? ('\n' :: rest) = none := by simp [readPlaces?, readExponent?]
  unfold skipReal?
  rw [readSign_toString]
  simp only
  split
  · rename_i h
    exact (toDigits_append_ne rfl _ _ _ h).elim
  · rename_i h
    exact (toDigits_append_ne rfl _ _ _ h).elim
  · simp [hread, hplaces]

theorem readWhole?_toString (hn : fitsWhole n = true) :
    readWhole? ((toString n).toList ++ '\n' :: rest) = some (n, '\n' :: rest) := by
  obtain ⟨ds, hread, hds⟩ := readDecimal?_toDigits n.natAbs (endsDigits_lineFeed rest)
  have hvalue : wholeOf? (decide (n < 0)) n.natAbs = some n := by
    have hsize : (if n < 0 then -(n.natAbs : Int) else n.natAbs) = n := by omega
    simp only [wholeOf?, decide_eq_true_eq, hsize, hn, if_true]
  have hbase (mark : Char) (hmark : mark ≠ '\n') (tail : List Char)
      (h : (toString n).toList ++ '\n' :: rest = '0' :: mark :: tail) : False :=
    toString_ne_marked n rest hmark tail h
  rw [readWhole?.eq_4 _ (hbase 'x' (by decide)) (hbase 'o' (by decide)) (hbase 'b' (by decide)),
    readSign_toString]
  simp [hread, hds, hvalue]

theorem readNumber?_toString (hn : fitsWhole n = true) :
    readNumber? ((toString n).toList ++ '\n' :: rest) = some (.whole n, '\n' :: rest) := by
  rw [readNumber?, skipTime?_toString, skipReal?_toString, readWhole?_toString n rest hn]
  rfl

end Line

end CalendarRules.Toml
