import CalendarRules.Proofs.Time.Shape
import Mathlib.Data.List.Induction

/-!
# Days in the order of the calendar

The number of a day counts the days of the calendar, so of two dates the later one has the greater
number. What is read from a timestamp is a day of the calendar, with a fraction of less than a
second and one leap second at most.
-/

namespace CalendarRules

namespace Date

/-! ## Counting days -/

/-- The date stands earlier in the calendar: by its year, then its month, then its day. -/
def Before (d d' : Date) : Prop :=
  d.year < d'.year ∨
    d.year = d'.year ∧ (d.month < d'.month ∨ d.month = d'.month ∧ d.day < d'.day)

/-- The days before the year. -/
def daysBeforeYear (year : Int) : Int :=
  365 * (year - 1) + (year - 1) / 4 - (year - 1) / 100 + (year - 1) / 400

theorem dayNumber_eq (d : Date) :
    d.dayNumber = daysBeforeYear d.year + daysBefore d.year d.month + d.day :=
  rfl

theorem daysBefore_succ (year : Int) (month : Nat) :
    daysBefore year (month + 2) = daysBefore year (month + 1) + monthLength year (month + 1) := by
  simp [daysBefore, List.range_succ]

theorem daysBefore_mono (year : Int) {month month' : Nat} (h : month ≤ month') :
    daysBefore year month ≤ daysBefore year month' := by
  induction h with
  | refl => exact Nat.le_refl _
  | @step month' h ih =>
    cases month' with
    | zero => simpa [daysBefore] using ih
    | succ month' =>
      rw [daysBefore_succ]
      omega

theorem daysBefore_year (year : Int) :
    daysBeforeYear year + daysBefore year 13 = daysBeforeYear (year + 1) := by
  have hmonths : daysBefore year 13 = if isLeapYear year then 366 else 365 := by
    cases hleap : isLeapYear year <;> simp [daysBefore, List.range_succ, monthLength, hleap]
  rw [hmonths]
  unfold daysBeforeYear
  split
  · rename_i hleap
    simp [isLeapYear] at hleap
    omega
  · rename_i hleap
    simp [isLeapYear] at hleap
    omega

theorem daysBeforeYear_mono {year year' : Int} (h : year ≤ year') :
    daysBeforeYear year ≤ daysBeforeYear year' := by
  unfold daysBeforeYear
  omega

/-! ## Dates of the calendar -/

theorem bounds_of_isValid {d : Date} (h : d.isValid = true) :
    1 ≤ d.month ∧ d.month ≤ 12 ∧ 1 ≤ d.day ∧ d.day ≤ monthLength d.year d.month := by
  simp only [isValid, Bool.and_eq_true, decide_eq_true_eq] at h
  omega

theorem dayNumber_le {d : Date} (h : d.isValid = true) :
    d.dayNumber ≤ daysBeforeYear d.year + daysBefore d.year (d.month + 1) := by
  obtain ⟨hfirst, -, -, hday⟩ := bounds_of_isValid h
  obtain ⟨month, hmonth⟩ := Nat.exists_eq_add_of_le' hfirst
  rw [dayNumber_eq, hmonth, daysBefore_succ]
  rw [hmonth] at hday
  omega

theorem dayNumber_lt_of_before {d d' : Date} (hd : d.isValid = true) (hd' : d'.isValid = true)
    (h : d.Before d') : d.dayNumber < d'.dayNumber := by
  obtain ⟨-, hlast, -, -⟩ := bounds_of_isValid hd
  obtain ⟨-, -, hpos, -⟩ := bounds_of_isValid hd'
  have hend := dayNumber_le hd
  rcases h with hyear | ⟨hyear, hmonth | ⟨hmonth, hday⟩⟩
  · have hmonths := daysBefore_mono d.year (show d.month + 1 ≤ 13 by omega)
    have hyears := daysBeforeYear_mono (Int.add_one_le_of_lt hyear)
    have hnext := daysBefore_year d.year
    rw [dayNumber_eq d']
    omega
  · have hmonths := daysBefore_mono d.year (show d.month + 1 ≤ d'.month from hmonth)
    rw [dayNumber_eq d', ← hyear]
    omega
  · rw [dayNumber_eq, dayNumber_eq, hyear, hmonth]
    omega

theorem before_total (d d' : Date) : d.Before d' ∨ d = d' ∨ d'.Before d := by
  have heq : d = d' ↔ d.year = d'.year ∧ d.month = d'.month ∧ d.day = d'.day := by
    cases d
    cases d'
    simp
  rw [heq]
  unfold Before
  omega

theorem dayNumber_lt_iff {d d' : Date} (hd : d.isValid = true) (hd' : d'.isValid = true) :
    d.dayNumber < d'.dayNumber ↔ d.Before d' := by
  refine ⟨fun h => ?_, dayNumber_lt_of_before hd hd'⟩
  rcases before_total d d' with hbefore | rfl | hafter
  · exact hbefore
  · omega
  · have := dayNumber_lt_of_before hd' hd hafter
    omega

theorem weekday_lt (d : Date) : d.weekday < 7 := by
  unfold weekday
  omega

end Date

/-! ## What timestamps give -/

/-- A time of the clock on a date of the calendar. Only the last second of a minute may be followed
by a leap second. -/
structure Moment.OnClock (m : Moment) : Prop where
  date : m.date.isValid = true
  hour : m.hour ≤ 23
  minute : m.minute ≤ 59
  second : m.second ≤ 59
  nanosecond : m.nanosecond < if m.second = 59 then 2 * 10 ^ 9 else 10 ^ 9

namespace Stamp

theorem ofDigits_lt {ds : List Char} (h : ∀ d ∈ ds, d.isDigit = true) :
    ofDigits ds < 10 ^ ds.length := by
  induction ds using List.reverseRecOn with
  | nil => simp [ofDigits]
  | append_singleton ds d ih =>
    obtain ⟨hds, hd⟩ := List.forall_mem_append.mp h
    have hlt := ih hds
    have hbounds : 48 ≤ d.toNat ∧ d.toNat ≤ 57 := Char.isDigit_iff_toNat.mp (hd d (by simp))
    have hzero : '0'.toNat = 48 := rfl
    rw [ofDigits_concat, List.length_append, List.length_singleton, Nat.pow_succ]
    omega

theorem isDigit_of_readDigits? {cs ds rest : List Char} (h : readDigits? cs = some (ds, rest)) :
    ∀ d ∈ ds, d.isDigit = true := by
  unfold readDigits? at h
  split at h
  · cases h
  · cases h
    exact fun d hd => List.mem_takeWhile_imp hd

theorem readFraction?_lt {cs rest : List Char} {n : Nat} (h : readFraction? cs = some (n, rest)) :
    n < 10 ^ 9 := by
  unfold readFraction? at h
  split at h
  · rename_i cs
    obtain ⟨⟨ds, rest'⟩, hread, h⟩ := Option.bind_eq_some_iff.mp h
    cases h
    have hdigits : ∀ d ∈ ds.take 9, d.isDigit = true := fun d hd =>
      isDigit_of_readDigits? hread d (List.mem_of_mem_take hd)
    have hlength : (ds.take 9).length ≤ 9 := List.length_take_le 9 ds
    calc ofDigits (ds.take 9) * 10 ^ (9 - (ds.take 9).length)
        < 10 ^ (ds.take 9).length * 10 ^ (9 - (ds.take 9).length) :=
          Nat.mul_lt_mul_of_pos_right (ofDigits_lt hdigits) (Nat.pow_pos (by decide))
      _ = 10 ^ 9 := by rw [← Nat.pow_add, Nat.add_sub_cancel' hlength]
  · cases h
    decide

theorem readField?_lt {f : Field} {r r' : Reading} {cs rest : List Char}
    (h : r.nanosecond < 10 ^ 9) (hread : readField? f r cs = some (r', rest)) :
    r'.nanosecond < 10 ^ 9 := by
  cases f with
  | fraction =>
    obtain ⟨⟨n, rest'⟩, hfraction, heq⟩ := Option.map_eq_some_iff.mp hread
    cases heq
    exact readFraction?_lt hfraction
  | _ =>
    obtain ⟨⟨n, rest'⟩, -, heq⟩ := Option.map_eq_some_iff.mp hread
    cases heq
    exact h

theorem readShape?_lt {parts : List Part} {r r' : Reading} {cs : List Char}
    (h : r.nanosecond < 10 ^ 9) (hread : readShape? parts r cs = some r') :
    r'.nanosecond < 10 ^ 9 := by
  induction parts generalizing r cs with
  | nil =>
    rw [readShape?] at hread
    split at hread
    · cases hread
      exact h
    · cases hread
  | cons part parts ih =>
    cases part with
    | literal c =>
      cases cs with
      | nil => cases hread
      | cons d cs =>
        rw [readShape?] at hread
        split at hread
        · exact ih h hread
        · cases hread
    | blanks => exact ih h hread
    | field f =>
      obtain ⟨⟨r'', rest⟩, hfield, hrest⟩ := Option.bind_eq_some_iff.mp hread
      exact ih (readField?_lt h hfield) hrest

theorem Reading.onClock_of_moment? {r : Reading} {m : Moment} (h : r.nanosecond < 10 ^ 9)
    (hm : r.moment? = some m) : m.OnClock := by
  unfold moment? at hm
  split at hm
  · rename_i hfits
    simp only [Bool.and_eq_true, decide_eq_true_eq] at hfits
    obtain ⟨⟨⟨⟨hdate, hhour⟩, hminute⟩, hsecond⟩, -⟩ := hfits
    cases hm
    unfold moment
    split
    · exact ⟨hdate, hhour, hminute, Nat.le_refl 59, by
        simp only [Moment.nanosecondsPerSecond, if_true]
        omega⟩
    · exact ⟨hdate, hhour, hminute, by dsimp only; omega, by
        dsimp only
        split <;> omega⟩
  · cases hm

theorem parse?_onClock {raw : String} {m : Moment} (h : parse? raw = some m) : m.OnClock := by
  obtain ⟨shape, -, hshape⟩ := List.exists_of_findSome?_eq_some h
  obtain ⟨r, hread, hm⟩ := Option.bind_eq_some_iff.mp hshape
  exact Reading.onClock_of_moment? (readShape?_lt (by decide) hread) hm

end Stamp

end CalendarRules
