import CalendarRules.Json.Read
import CalendarRules.Proofs.Decimal.Digits
import CalendarRules.Proofs.Text.Runs

/-!
# The texts of numbers

A number is read from its texts and from no others. Whole numbers are read back from their digits.
-/

namespace CalendarRules.Json

open Decimal Text

/-- The number fits in 64 bits, with a sign or without. -/
def Fits64 (n : Int) : Prop := -(maxNegated : Int) ≤ n ∧ n ≤ (maxUnsigned : Int)

/-- The text does not go on with a number. -/
def EndsNumber (rest : List Char) : Prop :=
  ∀ c ∈ rest.head?, c.isDigit = false ∧ c ≠ '.' ∧ c ≠ 'e' ∧ c ≠ 'E'

/-- The text is read as the number. -/
def IsNumeral (n : Number) (cs : List Char) : Prop :=
  ∃ l : Literal, l.number? = some n ∧
    ∀ rest, EndsNumber rest → readNumber? (cs ++ rest) = some (l, rest)

theorem ofDigits_map (ds : List Char) :
    ofDigits (ds.map digitValue) = Nat.ofDigitChars 10 ds 0 := by
  rw [ofDigits, List.foldl_map]
  rfl

theorem digitValue_eq_zero {d : Char} (hd : d.isDigit = true) (h : digitValue d = 0) : d = '0' := by
  have hbounds : 48 ≤ d.toNat ∧ d.toNat ≤ 57 := Char.isDigit_iff_toNat.mp hd
  have hzero : '0'.toNat = 48 := rfl
  apply Char.toNat_inj.mp
  rw [digitValue] at h
  omega

/-! ## The texts of numbers -/

def DigitRun (ds : List Char) : Prop := ds ≠ [] ∧ ∀ d ∈ ds, d.isDigit = true

/-- The digits before the point. A zero stands alone. -/
inductive WholeText : List Nat → List Char → Prop where
  | zero : WholeText [0] ['0']
  | run {d ds} (hd : d ≠ '0') (hds : DigitRun (d :: ds)) :
    WholeText ((d :: ds).map digitValue) (d :: ds)

/-- The point and the digits after it, or nothing. -/
inductive FractionText : List Nat → List Char → Prop where
  | none : FractionText [] []
  | some {ds} (hds : DigitRun ds) : FractionText (ds.map digitValue) ('.' :: ds)

inductive ExponentSign : Bool → List Char → Prop where
  | none : ExponentSign false []
  | plus : ExponentSign false ['+']
  | minus : ExponentSign true ['-']

/-- The exponent after its mark, or nothing. -/
inductive ExponentText : Option Int → List Char → Prop where
  | none : ExponentText none []
  | some {mark negative sign ds} (hmark : mark = 'e' ∨ mark = 'E')
      (hsign : ExponentSign negative sign) (hds : DigitRun ds) :
    ExponentText (some (if negative then -(ofDigits (ds.map digitValue) : Int)
      else ofDigits (ds.map digitValue))) (mark :: sign ++ ds)

inductive NumberText : Literal → List Char → Prop where
  | mk (negative : Bool) {whole fraction exponent w f x} (hw : WholeText whole w)
      (hf : FractionText fraction f) (hx : ExponentText exponent x) :
    NumberText ⟨negative, whole, fraction, exponent⟩
      ((if negative then ['-'] else []) ++ w ++ f ++ x)

/-! ### Runs of digits -/

/-- The text does not go on with digits. -/
def EndsDigits (rest : List Char) : Prop := ∀ c ∈ rest.head?, c.isDigit = false

theorem readDigits_append {ds rest : List Char} (hds : ∀ d ∈ ds, d.isDigit = true)
    (hrest : EndsDigits rest) : readDigits (ds ++ rest) = (ds.map digitValue, rest) := by
  have hrun := takeWhile_run Char.isDigit ds rest hds hrest
  rw [readDigits, hrun.1, hrun.2]

theorem exists_digits {cs rest : List Char} {values : List Nat}
    (h : readDigits cs = (values, rest)) :
    ∃ ds, (∀ d ∈ ds, d.isDigit = true) ∧ values = ds.map digitValue ∧ cs = ds ++ rest := by
  obtain ⟨hvalues, hrest⟩ := Prod.mk.inj h
  refine ⟨cs.takeWhile Char.isDigit, fun d hd => List.mem_takeWhile_imp hd, hvalues.symm, ?_⟩
  rw [← hrest, List.takeWhile_append_dropWhile]

theorem exists_digitRun {cs rest : List Char} {values : List Nat}
    (h : readDigits cs = (values, rest)) (hne : values ≠ []) :
    ∃ ds, DigitRun ds ∧ values = ds.map digitValue ∧ cs = ds ++ rest := by
  obtain ⟨ds, hds, rfl, rfl⟩ := exists_digits h
  exact ⟨ds, ⟨fun hnil => hne (by rw [hnil]; rfl), hds⟩, rfl, rfl⟩

/-! ### Whole numbers -/

theorem readWhole?_wholeText {whole : List Nat} {w rest : List Char} (h : WholeText whole w)
    (hrest : EndsDigits rest) : readWhole? (w ++ rest) = some (whole, rest) := by
  cases h with
  | zero =>
    have hread : readDigits (['0'] ++ rest) = ([0], rest) := readDigits_append (by simp) hrest
    rw [readWhole?, hread]
    rfl
  | @run d ds hd hds =>
    have hfirst : digitValue d ≠ 0 := fun hvalue =>
      hd (digitValue_eq_zero (hds.2 d List.mem_cons_self) hvalue)
    rw [readWhole?, readDigits_append hds.2 hrest]
    cases ds <;> simp [hfirst]

theorem exists_wholeText {cs rest : List Char} {whole : List Nat}
    (h : readWhole? cs = some (whole, rest)) : ∃ w, WholeText whole w ∧ cs = w ++ rest := by
  unfold readWhole? at h
  split at h
  · cases h
  · cases h
  · rename_i found hnone hzero
    rw [Option.some.inj h] at hnone hzero
    obtain ⟨ds, hds, rfl, rfl⟩ := exists_digitRun (Option.some.inj h)
      fun hnil => hnone rest (by rw [hnil])
    obtain ⟨d, ds, rfl⟩ := List.exists_cons_of_ne_nil hds.1
    refine ⟨d :: ds, ?_, rfl⟩
    by_cases hd : d = '0'
    · cases ds with
      | nil =>
        rw [hd]
        exact .zero
      | cons e ds =>
        rw [hd] at hzero
        exact absurd rfl (hzero (digitValue e) (ds.map digitValue) rest)
    · exact .run hd hds

/-! ### Fractions and exponents -/

theorem FractionText.endsDigits {fraction : List Nat} {f rest : List Char}
    (h : FractionText fraction f) (hrest : EndsDigits rest) : EndsDigits (f ++ rest) := by
  cases h with
  | none => exact hrest
  | some =>
    rintro _ ⟨⟩
    rfl

theorem readFraction?_fractionText {fraction : List Nat} {f rest : List Char}
    (h : FractionText fraction f) (hrest : EndsDigits rest) (hpoint : '.' ∉ rest.head?) :
    readFraction? (f ++ rest) = some (fraction, rest) := by
  cases h with
  | none =>
    refine readFraction?.eq_2 rest ?_
    rintro cs rfl
    exact hpoint rfl
  | @some ds hds =>
    rw [List.cons_append, readFraction?, readDigits_append hds.2 hrest]
    obtain ⟨d, ds, rfl⟩ := List.exists_cons_of_ne_nil hds.1
    rfl

theorem exists_fractionText {cs rest : List Char} {fraction : List Nat}
    (h : readFraction? cs = some (fraction, rest)) :
    ∃ f, FractionText fraction f ∧ cs = f ++ rest := by
  unfold readFraction? at h
  split at h
  · split at h
    · cases h
    · rename_i found hnone
      rw [Option.some.inj h] at hnone
      obtain ⟨ds, hds, rfl, rfl⟩ := exists_digitRun (Option.some.inj h)
        fun hnil => hnone rest (by rw [hnil])
      exact ⟨_, .some hds, rfl⟩
  · cases h
    exact ⟨[], .none, rfl⟩

theorem ExponentText.ends {exponent : Option Int} {x rest : List Char}
    (h : ExponentText exponent x) (hrest : EndsNumber rest) :
    EndsDigits (x ++ rest) ∧ '.' ∉ (x ++ rest).head? := by
  cases h with
  | none => exact ⟨fun c hc => (hrest c hc).1, fun hc => (hrest _ hc).2.1 rfl⟩
  | some hmark =>
    constructor
    · rintro _ ⟨⟩
      rcases hmark with rfl | rfl <;> rfl
    · rintro ⟨⟩
      simp at hmark

/-- The text does not start with a sign. -/
def NoSign (cs : List Char) : Prop := '+' ∉ cs.head? ∧ '-' ∉ cs.head?

theorem readExponent?_sign {mark : Char} (hmark : mark = 'e' ∨ mark = 'E') {negative : Bool}
    {sign cs : List Char} (hsign : ExponentSign negative sign) (hcs : sign = [] → NoSign cs) :
    readExponent? (mark :: (sign ++ cs)) =
      if (readDigits cs).1 = [] then none
      else some (some (if negative then -(ofDigits (readDigits cs).1 : Int)
        else ofDigits (readDigits cs).1), (readDigits cs).2) := by
  have hread : ∀ found : List Nat × List Char, readDigits cs = found →
      readExponent? (mark :: (sign ++ cs)) =
        if found.1 = [] then none
        else some (some (if negative then -(ofDigits found.1 : Int) else ofDigits found.1),
          found.2) := by
    rintro ⟨values, left⟩ hfound
    cases hsign with
    | none =>
      cases cs with
      | nil =>
        cases hfound
        simp [readExponent?, hmark, readDigits]
      | cons c cs =>
        obtain ⟨hplus, hminus⟩ := hcs rfl
        have hplus : c ≠ '+' := by simpa using hplus
        have hminus : c ≠ '-' := by simpa using hminus
        cases values <;> simp [readExponent?, hmark, hplus, hminus, hfound]
    | plus => cases values <;> simp [readExponent?, hmark, hfound]
    | minus => cases values <;> simp [readExponent?, hmark, hfound]
  exact hread _ rfl

theorem noSign_of_isDigit {d : Char} (hd : d.isDigit = true) (ds : List Char) :
    NoSign (d :: ds) := by
  constructor <;> rintro ⟨⟩ <;> cases hd

theorem exists_sign (cs : List Char) :
    ∃ negative sign cs', ExponentSign negative sign ∧ cs = sign ++ cs' ∧
      (sign = [] → NoSign cs') := by
  cases cs with
  | nil => exact ⟨false, [], [], .none, rfl, fun _ => by simp [NoSign]⟩
  | cons c cs =>
    by_cases hminus : c = '-'
    · exact ⟨true, ['-'], cs, .minus, by rw [hminus]; rfl, by simp⟩
    by_cases hplus : c = '+'
    · exact ⟨false, ['+'], cs, .plus, by rw [hplus]; rfl, by simp⟩
    · exact ⟨false, [], c :: cs, .none, rfl, fun _ => by simp [NoSign, hminus, hplus]⟩

theorem readExponent?_exponentText {exponent : Option Int} {x rest : List Char}
    (h : ExponentText exponent x) (hrest : EndsNumber rest) :
    readExponent? (x ++ rest) = some (exponent, rest) := by
  cases h with
  | none =>
    cases rest with
    | nil => rfl
    | cons c cs =>
      have hc := hrest c rfl
      simp [readExponent?, hc.2.2]
  | @some mark negative sign ds hmark hsign hds =>
    have hdigits := readDigits_append hds.2 fun c hc => (hrest c hc).1
    obtain ⟨d, ds, rfl⟩ := List.exists_cons_of_ne_nil hds.1
    have hstart := noSign_of_isDigit (hds.2 d List.mem_cons_self) (ds ++ rest)
    have hsplit : mark :: sign ++ d :: ds ++ rest = mark :: (sign ++ d :: (ds ++ rest)) := by
      simp
    rw [hsplit, readExponent?_sign hmark hsign fun _ => hstart, ← List.cons_append, hdigits]
    rfl

theorem exists_exponentText {cs rest : List Char} {exponent : Option Int}
    (h : readExponent? cs = some (exponent, rest)) :
    ∃ x, ExponentText exponent x ∧ cs = x ++ rest := by
  cases cs with
  | nil =>
    cases h
    exact ⟨[], .none, rfl⟩
  | cons mark cs =>
    by_cases hmark : mark = 'e' ∨ mark = 'E'
    · obtain ⟨negative, sign, cs, hsign, rfl, hcs⟩ := exists_sign cs
      rw [readExponent?_sign hmark hsign hcs] at h
      split at h
      · cases h
      · rename_i hne
        cases h
        obtain ⟨ds, hds, hvalues, heq⟩ :=
          exists_digitRun (show readDigits cs = ((readDigits cs).1, (readDigits cs).2) from rfl) hne
        refine ⟨mark :: (sign ++ ds), ?_, ?_⟩
        · rw [hvalues]
          exact .some hmark hsign hds
        · rw [List.cons_append, List.append_assoc, ← heq]
    · have hbool : (mark = 'e' || mark = 'E') = false := by simpa using hmark
      unfold readExponent? at h
      simp only [hbool, Bool.false_eq_true, if_false] at h
      cases h
      exact ⟨[], .none, rfl⟩

/-! ### Numbers -/

theorem readNumber?_numberText {l : Literal} {cs rest : List Char} (h : NumberText l cs)
    (hrest : EndsNumber rest) : readNumber? (cs ++ rest) = some (l, rest) := by
  cases h with
  | @mk negative whole fraction exponent w f x hw hf hx =>
    have hends := hx.ends hrest
    have hwhole := readWhole?_wholeText hw (hf.endsDigits hends.1)
    have hfraction := readFraction?_fractionText hf hends.1 hends.2
    have hexponent := readExponent?_exponentText hx hrest
    cases negative with
    | true => simp [readNumber?, hwhole, hfraction, hexponent]
    | false =>
      obtain ⟨d, ds, rfl, hd⟩ : ∃ d ds, w = d :: ds ∧ d.isDigit = true := by
        cases hw with
        | zero => exact ⟨_, _, rfl, rfl⟩
        | run hd hds => exact ⟨_, _, rfl, hds.2 _ List.mem_cons_self⟩
      have hminus : d ≠ '-' := by rintro rfl; cases hd
      simp only [List.cons_append] at hwhole
      simp [readNumber?, hminus, hwhole, hfraction, hexponent]

theorem exists_numberText {cs rest : List Char} {l : Literal}
    (h : readNumber? cs = some (l, rest)) : ∃ ds, NumberText l ds ∧ cs = ds ++ rest := by
  have hparts : ∃ negative cs' whole cs₁ fraction cs₂ exponent,
      cs = (if negative then ['-'] else []) ++ cs' ∧ readWhole? cs' = some (whole, cs₁) ∧
      readFraction? cs₁ = some (fraction, cs₂) ∧ readExponent? cs₂ = some (exponent, rest) ∧
      l = ⟨negative, whole, fraction, exponent⟩ := by
    cases cs with
    | nil => cases h
    | cons c cs =>
      by_cases hminus : c = '-'
      · subst hminus
        simp only [readNumber?, bind, Option.bind_eq_some_iff] at h
        obtain ⟨⟨whole, cs₁⟩, hw, ⟨fraction, cs₂⟩, hf, ⟨exponent, cs₃⟩, hx, heq⟩ := h
        cases heq
        exact ⟨true, cs, whole, cs₁, fraction, cs₂, exponent, rfl, hw, hf, hx, rfl⟩
      · simp only [readNumber?, List.cons.injEq, hminus, false_and, imp_self, implies_true,
          Option.bind_eq_bind, Option.bind_eq_some_iff, Option.some.injEq, Prod.mk.injEq,
          Prod.exists, exists_eq_right_right] at h
        obtain ⟨whole, cs₁, hw, fraction, cs₂, hf, exponent, hx, heq⟩ := h
        cases heq
        exact ⟨false, c :: cs, whole, cs₁, fraction, cs₂, exponent, rfl, hw, hf, hx, rfl⟩
  obtain ⟨negative, cs', whole, cs₁, fraction, cs₂, exponent, rfl, hwhole, hfraction, hexponent,
    rfl⟩ := hparts
  obtain ⟨w, hw, rfl⟩ := exists_wholeText hwhole
  obtain ⟨f, hf, rfl⟩ := exists_fractionText hfraction
  obtain ⟨x, hx, rfl⟩ := exists_exponentText hexponent
  exact ⟨_, .mk negative hw hf hx, by simp⟩

theorem isNumeral_iff (n : Number) (cs : List Char) :
    IsNumeral n cs ↔ ∃ l, NumberText l cs ∧ l.number? = some n := by
  constructor
  · rintro ⟨l, hl, hread⟩
    have hwhole := hread [] (by simp [EndsNumber])
    rw [List.append_nil] at hwhole
    obtain ⟨ds, hds, rfl⟩ := exists_numberText hwhole
    rw [List.append_nil]
    exact ⟨l, hds, hl⟩
  · rintro ⟨l, hds, hl⟩
    exact ⟨l, hl, fun rest hrest => readNumber?_numberText hds hrest⟩

/-! ## Whole numbers in 64 bits -/

theorem numberText_toString (n : Int) :
    NumberText ⟨decide (n < 0), (Nat.toDigits 10 n.natAbs).map digitValue, [], none⟩
      (toString n).toList := by
  have hwhole : WholeText ((Nat.toDigits 10 n.natAbs).map digitValue)
      (Nat.toDigits 10 n.natAbs) := by
    obtain ⟨d, ds, hds, hd⟩ := toDigits_eq_cons n.natAbs
    have hrun : DigitRun (d :: ds) :=
      ⟨by simp, hds ▸ fun _ => Nat.isDigit_of_mem_toDigits (by decide) (by decide)⟩
    rw [hds]
    by_cases hzero : d = '0'
    · -- A zero in front of more digits is refused, and no number starts so.
      have hm := eq_zero_of_head?_toDigits n.natAbs (by rw [hds, hzero]; rfl)
      rw [hm, Nat.toDigits_of_lt_base (by decide)] at hds
      cases hds
      exact .zero
    · exact .run hzero hrun
  have htext := NumberText.mk (decide (n < 0)) hwhole .none .none
  rw [toList_toString]
  simpa using htext

theorem number?_whole {n : Int} (hn : Fits64 n) :
    Literal.number? ⟨decide (n < 0), (Nat.toDigits 10 n.natAbs).map digitValue, [], none⟩ =
      some (.whole n) := by
  obtain ⟨hlow, hhigh⟩ := hn
  have hdigits : ofDigits ((Nat.toDigits 10 n.natAbs).map digitValue) = n.natAbs := by
    rw [ofDigits_map]
    exact Nat.ofDigitChars_toDigits (by omega) (by omega)
  simp only [Literal.number?, hdigits, List.isEmpty_nil, Option.isNone_none, Bool.and_self, if_true]
  by_cases hneg : n < 0
  · have hsize : n.natAbs ≤ maxNegated := by omega
    have hpos : 0 < n.natAbs := by omega
    have hback : -(n.natAbs : Int) = n := by omega
    simp only [hneg, hsize, hpos, hback, decide_true, Bool.not_true, Bool.false_and, Bool.and_self,
      Bool.false_eq_true, if_false, if_true]
  · have hsize : n.natAbs ≤ maxUnsigned := by omega
    have hback : (n.natAbs : Int) = n := by omega
    simp only [hneg, hsize, hback, decide_true, decide_false, Bool.not_false, Bool.and_self,
      if_true]

theorem isNumeral_toString {n : Int} (hn : Fits64 n) : IsNumeral (.whole n) (toString n).toList :=
  (isNumeral_iff _ _).mpr ⟨_, numberText_toString n, number?_whole hn⟩

theorem IsNumeral.head {n : Number} {cs : List Char} (h : IsNumeral n cs) :
    ∃ c ds, cs = c :: ds ∧ (c.isDigit = true ∨ c = '-') := by
  obtain ⟨l, -, hread⟩ := h
  have hl := hread [] (by simp [EndsNumber])
  rw [List.append_nil] at hl
  cases cs with
  | nil => simp [readNumber?, readWhole?, readDigits] at hl
  | cons c ds =>
    refine ⟨c, ds, rfl, ?_⟩
    cases hdigit : c.isDigit with
    | true => exact .inl rfl
    | false =>
      right
      apply Decidable.byContradiction
      intro hminus
      simp [readNumber?, readWhole?, readDigits, hdigit, hminus] at hl

end CalendarRules.Json
