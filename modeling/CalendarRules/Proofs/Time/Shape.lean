import CalendarRules.Proofs.Text.Trim
import CalendarRules.Time.Stamp
import Mathlib.Algebra.Group.Nat.Defs

/-!
# Reading the parts of a timestamp

Numbers are written with leading zeros here. Each part of a shape reads what is written for it and
leaves the text after that.
-/

namespace CalendarRules.Stamp

open Text

/-! ## Numbers -/

/-- The last digits of a number, with zeros in front when it has less of them. -/
def padded : Nat → Nat → List Char
  | 0, _ => []
  | width + 1, n => padded width (n / 10) ++ [Nat.digitChar (n % 10)]

theorem isDigit_of_mem_padded (width n : Nat) : ∀ c ∈ padded width n, c.isDigit = true := by
  induction width generalizing n with
  | zero => simp [padded]
  | succ width ih =>
    intro c hc
    rcases List.mem_append.mp hc with hc | hc
    · exact ih (n / 10) c hc
    · rw [List.mem_singleton.mp hc]
      simp [Nat.isDigit_digitChar, Nat.mod_lt]

@[simp] theorem length_padded (width n : Nat) : (padded width n).length = width := by
  induction width generalizing n with
  | zero => rfl
  | succ width ih => simp [padded, ih]

theorem ofDigits_concat (ds : List Char) (d : Char) :
    ofDigits (ds ++ [d]) = 10 * ofDigits ds + (d.toNat - '0'.toNat) := by
  simp [ofDigits]

theorem ofDigits_padded (width : Nat) {n : Nat} (h : n < 10 ^ width) :
    ofDigits (padded width n) = n := by
  induction width generalizing n with
  | zero =>
    have hn : n = 0 := by simpa using h
    simp [padded, ofDigits, hn]
  | succ width ih =>
    have hn : n / 10 < 10 ^ width := Nat.div_lt_of_lt_mul (by rwa [← Nat.pow_succ'])
    have hlast : (n % 10).digitChar.toNat - '0'.toNat = n % 10 :=
      Nat.toNat_digitChar_sub_48_of_lt_ten (Nat.mod_lt n (by decide))
    rw [padded, ofDigits_concat, ih hn, hlast]
    omega

theorem exists_cons_padded (width n : Nat) :
    ∃ d ds, padded (width + 1) n = d :: ds ∧ d.isDigit = true := by
  obtain ⟨d, ds, hds⟩ := List.exists_cons_of_length_eq_add_one (length_padded (width + 1) n)
  exact ⟨d, ds, hds, isDigit_of_mem_padded _ n d (hds ▸ List.mem_cons_self)⟩

theorem trimStartChars_padded (width n : Nat) (rest : List Char) :
    trimStartChars (padded (width + 1) n ++ rest) = padded (width + 1) n ++ rest := by
  obtain ⟨d, ds, hds, hd⟩ := exists_cons_padded width n
  rw [hds, List.cons_append, trimStartChars_cons_of_not_blank d _ (isBlank_of_isDigit hd)]

theorem readNumber?_padded (width : Nat) {n : Nat} (h : n < 10 ^ (width + 1)) (rest : List Char) :
    readNumber? (width + 1) (padded (width + 1) n ++ rest) = some (n, rest) := by
  have htake : (padded (width + 1) n ++ rest).take (width + 1) = padded (width + 1) n :=
    List.take_left' (length_padded ..)
  have hdigits : (padded (width + 1) n).takeWhile Char.isDigit = padded (width + 1) n := by
    simpa using (takeWhile_run _ _ [] (isDigit_of_mem_padded (width + 1) n) (by simp)).1
  obtain ⟨d, ds, hds, -⟩ := exists_cons_padded width n
  rw [readNumber?, htake, hdigits, hds]
  dsimp only
  rw [← hds, ofDigits_padded _ h, List.drop_left' rfl]

theorem readYear?_padded {n : Nat} (h : n < 10000) (rest : List Char) :
    readYear? (padded 4 n ++ rest) = some ((n : Int), rest) := by
  obtain ⟨d, ds, hds, hd⟩ := exists_cons_padded 3 n
  have hnumber := readNumber?_padded 3 h rest
  rw [hds, List.cons_append] at hnumber ⊢
  rw [readYear?.eq_3 _ (by rintro cs ⟨⟩; cases hd) (by rintro cs ⟨⟩; cases hd), hnumber]
  rfl

theorem readTwoDigits?_padded (n : Nat) (rest : List Char) :
    readTwoDigits? (padded 2 n ++ rest) = some (ofDigits (padded 2 n), rest) := by
  have h := isDigit_of_mem_padded 2 n
  simp only [padded, List.nil_append, List.cons_append, List.mem_cons] at h ⊢
  simp [readTwoDigits?, h]

/-! ## Dates and times -/

def dateText (d : Date) : List Char :=
  padded 4 d.year.toNat ++ '-' :: (padded 2 d.month ++ '-' :: padded 2 d.day)

theorem readShape?_date {d : Date} (hyear : 0 ≤ d.year ∧ d.year ≤ 9999) (hmonth : d.month < 100)
    (hday : d.day < 100) (parts : List Part) (r : Reading) (rest : List Char) :
    readShape? (dateParts ++ parts) r (dateText d ++ rest) =
      readShape? parts { r with year := d.year, month := d.month, day := d.day } rest := by
  have hcast : ((d.year.toNat : Nat) : Int) = d.year := Int.toNat_of_nonneg hyear.1
  have hlt : d.year.toNat < 10000 := by omega
  simp only [dateParts, dateText, List.cons_append, List.nil_append, List.append_assoc, readShape?,
    readField?, trimStartChars_padded, readYear?_padded hlt, hcast, Option.map_some, bind,
    Option.bind, if_true, readNumber?_padded 1 hmonth,
    readNumber?_padded 1 hday]

def hourText (hour minute : Nat) : List Char := padded 2 hour ++ ':' :: padded 2 minute

theorem readShape?_hour {hour minute : Nat} (hhour : hour < 100) (hminute : minute < 100)
    (parts : List Part) (r : Reading) (rest : List Char) :
    readShape? (hourParts ++ parts) r (hourText hour minute ++ rest) =
      readShape? parts { r with hour := hour, minute := minute } rest := by
  simp only [hourParts, hourText, List.cons_append, List.nil_append, List.append_assoc, readShape?,
    readField?, trimStartChars_padded, Option.map_some, bind, Option.bind, if_true,
    readNumber?_padded 1 hhour, readNumber?_padded 1 hminute]

/-- A fraction of so many digits, with its point, or nothing. -/
def fractionText : Nat → Nat → List Char
  | 0, _ => []
  | places + 1, fraction => '.' :: padded (places + 1) fraction

/-- The text does not go on with a fraction. -/
def EndsFraction (rest : List Char) : Prop := ∀ c ∈ rest.head?, c.isDigit = false ∧ c ≠ '.'

theorem readFraction?_text {places fraction : Nat} (hplaces : places ≤ 9)
    (hfraction : fraction < 10 ^ places) {rest : List Char} (hrest : EndsFraction rest) :
    readFraction? (fractionText places fraction ++ rest) =
      some (fraction * 10 ^ (9 - places), rest) := by
  cases places with
  | zero =>
    have hzero : fraction = 0 := by simpa using hfraction
    rw [fractionText, List.nil_append, hzero, Nat.zero_mul]
    refine readFraction?.eq_2 rest ?_
    rintro cs rfl
    exact (hrest '.' rfl).2 rfl
  | succ places =>
    have hrun := takeWhile_run Char.isDigit _ rest (isDigit_of_mem_padded (places + 1) fraction)
      fun c hc => (hrest c hc).1
    obtain ⟨d, ds, hds, -⟩ := exists_cons_padded places fraction
    have hread : readDigits? (padded (places + 1) fraction ++ rest) =
        some (padded (places + 1) fraction, rest) := by
      rw [readDigits?, hrun.1, hrun.2, hds]
    have htake : (padded (places + 1) fraction).take 9 = padded (places + 1) fraction :=
      List.take_of_length_le (by rw [length_padded]; exact hplaces)
    simp only [fractionText, List.cons_append, readFraction?, hread, bind, Option.bind, htake,
      ofDigits_padded _ hfraction, length_padded]
    rfl

def secondText (second places fraction : Nat) : List Char :=
  ':' :: (padded 2 second ++ fractionText places fraction)

theorem readShape?_second {second places fraction : Nat} (hsecond : second < 100)
    (hplaces : places ≤ 9) (hfraction : fraction < 10 ^ places) (parts : List Part) (r : Reading)
    {rest : List Char} (hrest : EndsFraction rest) :
    readShape? (secondParts ++ parts) r (secondText second places fraction ++ rest) =
      readShape? parts
        { r with second := second, nanosecond := fraction * 10 ^ (9 - places) } rest := by
  simp only [secondParts, secondText, List.cons_append, List.nil_append, List.append_assoc,
    readShape?, readField?, trimStartChars_padded, Option.map_some, bind, Option.bind, if_true,
    readNumber?_padded 1 hsecond, readFraction?_text hplaces hfraction hrest]

theorem readShape?_no_second {rest : List Char} (hrest : ∀ c ∈ rest.head?, c ≠ ':')
    (parts : List Part) (r : Reading) : readShape? (secondParts ++ parts) r rest = none := by
  cases rest with
  | nil => rfl
  | cons c cs => simp [secondParts, readShape?, hrest c rfl]

/-! ## Offsets -/

def offsetText (negative : Bool) (hours minutes : Nat) : List Char :=
  (if negative then '-' else '+') :: hourText hours minutes

def offsetSeconds (negative : Bool) (hours minutes : Nat) : Int :=
  if negative then -(hours * 3600 + minutes * 60 : Nat) else (hours * 3600 + minutes * 60 : Nat)

theorem readOffset?_text {hours minutes : Nat} (negative : Bool) (hhours : hours < 100)
    (hminutes : minutes ≤ 59) :
    readOffset? (offsetText negative hours minutes) =
      some (offsetSeconds negative hours minutes, []) := by
  have hsign (cs : List Char) :
      readSign? ((if negative then '-' else '+') :: cs) = some (negative, cs) := by
    cases negative <;> rfl
  have hcolon : (':' :: padded 2 minutes).dropWhile (fun c => c == ':' || isBlank c) =
      padded 2 minutes := by
    obtain ⟨d, ds, hds, hd⟩ := exists_cons_padded 1 minutes
    have hne : d ≠ ':' := by rintro rfl; cases hd
    simp [hds, hne, isBlank_of_isDigit hd]
  have htwo := readTwoDigits?_padded minutes []
  rw [List.append_nil] at htwo
  simp only [offsetText, hourText, readOffset?, hsign, readTwoDigits?_padded, hcolon, htwo, bind,
    Option.bind, ofDigits_padded 2 (n := hours) hhours,
    ofDigits_padded 2 (n := minutes) (by omega)]
  rw [if_neg (by omega), offsetSeconds]
  cases negative <;> simp

theorem readShape?_offset {hours minutes : Nat} (negative : Bool) (hhours : hours < 100)
    (hminutes : minutes ≤ 59) (r : Reading) :
    readShape? [.field .offset] r (offsetText negative hours minutes) =
      some { r with offset := some (offsetSeconds negative hours minutes) } := by
  have htrim : trimStartChars (offsetText negative hours minutes) =
      offsetText negative hours minutes := by
    cases negative <;> exact trimStartChars_cons_of_not_blank _ _ (by decide)
  simp [readShape?, readField?, htrim, readOffset?_text negative hhours hminutes]

theorem readShape?_no_offset {rest : List Char} (hrest : ∀ c ∈ rest.head?, c = ':') (r : Reading) :
    readShape? [.field .offset] r rest = none := by
  cases rest with
  | nil => rfl
  | cons c cs =>
    obtain rfl : c = ':' := hrest c rfl
    rfl

end CalendarRules.Stamp
