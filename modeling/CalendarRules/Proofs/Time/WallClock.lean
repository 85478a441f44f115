import CalendarRules.Proofs.Time.Shape

/-!
# Timestamps give the wall-clock time that is written

A timestamp has a date, a time of day with or without seconds and a fraction of them, and an offset,
a `Z` or nothing at its end. What is read is the time as it is written, whatever stands at the end.
-/

namespace CalendarRules.Stamp

open Text

/-! ## Texts of a wall-clock time -/

/-- A date of the calendar whose year has four digits. -/
structure Day where
  date : Date
  isValid : date.isValid = true
  year_fits : 0 ≤ date.year ∧ date.year ≤ 9999

/-- What stands between the date and the time. -/
inductive Gap where
  | letter
  | space
  deriving DecidableEq

def Gap.char : Gap → Char
  | letter => 'T'
  | space => ' '

/-- Seconds may be left out. A fraction of no places is not written. -/
inductive Seconds where
  | omitted
  | given (second : Fin 60) (places : Fin 10) (fraction : Fin (10 ^ places.val))

def Seconds.text : Seconds → List Char
  | omitted => []
  | given second places fraction => secondText second places fraction

/-- A wall-clock time as it is written, up to its offset. -/
structure WallClock where
  day : Day
  gap : Gap
  hour : Fin 24
  minute : Fin 60
  seconds : Seconds

inductive Suffix where
  | none
  | zulu (small : Bool)
  | offset (negative : Bool) (hours : Fin 24) (minutes : Fin 60)

def Suffix.text : Suffix → List Char
  | none => []
  | zulu small => [if small then 'z' else 'Z']
  | offset negative hours minutes => offsetText negative hours minutes

/-- Characters that are all blank. -/
abbrev Blanks := { cs : List Char // ∀ c ∈ cs, isBlank c = true }

/-- A text with blanks around it. -/
def around (before after : Blanks) (cs : List Char) : String :=
  String.ofList (before.val ++ cs ++ after.val)

namespace WallClock

/-- The time with the gap in front of it. -/
def timeText (w : WallClock) : List Char :=
  w.gap.char :: (hourText w.hour w.minute ++ w.seconds.text)

def text (w : WallClock) (suffix : Suffix) (before after : Blanks) : String :=
  around before after (dateText w.day.date ++ w.timeText ++ suffix.text)

end WallClock

/-! ## The end of the text -/

namespace Suffix

/-- The end once a `Z` is an offset. -/
def zone : Suffix → List Char
  | none => []
  | zulu _ => offsetText false 0 0
  | offset negative hours minutes => offsetText negative hours minutes

theorem zone_cases (s : Suffix) :
    s.zone = [] ∨ ∃ negative, ∃ hours minutes : Nat,
      hours ≤ 23 ∧ minutes ≤ 59 ∧ s.zone = offsetText negative hours minutes := by
  cases s with
  | none => exact .inl rfl
  | zulu small => exact .inr ⟨false, 0, 0, by omega, by omega, rfl⟩
  | offset negative hours minutes => exact .inr ⟨negative, hours, minutes, by omega, by omega, rfl⟩

end Suffix

/-- The last character is a digit. -/
def EndsInDigit (cs : List Char) : Prop := ∃ c, cs.getLast? = some c ∧ c.isDigit = true

theorem EndsInDigit.append {ds : List Char} (h : EndsInDigit ds) (cs : List Char) :
    EndsInDigit (cs ++ ds) := by
  obtain ⟨c, hc, hd⟩ := h
  exact ⟨c, by simp [hc], hd⟩

theorem endsInDigit_padded (width n : Nat) : EndsInDigit (padded (width + 1) n) :=
  ⟨(n % 10).digitChar, by simp [padded], by simp [Nat.isDigit_digitChar, Nat.mod_lt]⟩

theorem endsInDigit_dateText (d : Date) : EndsInDigit (dateText d) := by
  have h := (endsInDigit_padded 1 d.day).append
    (padded 4 d.year.toNat ++ '-' :: padded 2 d.month ++ ['-'])
  simpa [dateText] using h

theorem endsInDigit_hourText (hour minute : Nat) : EndsInDigit (hourText hour minute) := by
  simpa [hourText] using (endsInDigit_padded 1 minute).append (padded 2 hour ++ [':'])

theorem endsInDigit_secondText (second places fraction : Nat) :
    EndsInDigit (secondText second places fraction) := by
  cases places with
  | zero => simpa [secondText, fractionText] using (endsInDigit_padded 1 second).append [':']
  | succ places =>
    have h := (endsInDigit_padded places fraction).append (':' :: padded 2 second ++ ['.'])
    simpa [secondText, fractionText] using h

theorem endsInDigit_timeText (w : WallClock) : EndsInDigit w.timeText := by
  have hhour := endsInDigit_hourText w.hour w.minute
  unfold WallClock.timeText
  cases w.seconds with
  | omitted => simpa [Seconds.text] using hhour.append [w.gap.char]
  | given second places fraction =>
    have h := (endsInDigit_secondText second places fraction).append
      (w.gap.char :: hourText w.hour w.minute)
    simpa [Seconds.text] using h

theorem expandZulu_of_digit {cs : List Char} (h : EndsInDigit cs) : expandZulu cs = cs := by
  obtain ⟨c, hc, hd⟩ := h
  obtain ⟨start, hstart⟩ := List.head?_eq_some_iff.mp (List.head?_reverse.trans hc)
  have hne : ¬ (c = 'Z' || c = 'z') = true := by
    rw [Bool.or_eq_true, decide_eq_true_eq, decide_eq_true_eq]
    rintro (rfl | rfl) <;> cases hd
  rw [expandZulu, hstart]
  exact if_neg hne

theorem expandZulu_suffix {cs : List Char} (h : EndsInDigit cs) (s : Suffix) :
    expandZulu (cs ++ s.text) = cs ++ s.zone := by
  cases s with
  | none => simpa [Suffix.text, Suffix.zone] using expandZulu_of_digit h
  | zulu small =>
    have hzero : offsetText false 0 0 = "+00:00".toList := by decide
    cases small <;> simp [expandZulu, Suffix.text, Suffix.zone, hzero]
  | offset negative hours minutes =>
    have hend := (endsInDigit_hourText hours minutes).append [if negative then '-' else '+']
    exact expandZulu_of_digit (hend.append cs)

/-! ## Blanks around the text -/

theorem isBlank_of_endsInDigit {cs : List Char} (h : EndsInDigit cs) :
    ∀ c ∈ cs.getLast?, isBlank c = false := by
  obtain ⟨d, hd, hdigit⟩ := h
  rw [hd]
  rintro c ⟨⟩
  exact isBlank_of_isDigit hdigit

theorem isBlank_of_suffix {cs : List Char} (h : EndsInDigit cs) (s : Suffix) :
    ∀ c ∈ (cs ++ s.text).getLast?, isBlank c = false := by
  cases s with
  | none => simpa [Suffix.text] using isBlank_of_endsInDigit h
  | zulu small => cases small <;> simp [Suffix.text, isBlank]
  | offset negative hours minutes =>
    have hend := (endsInDigit_hourText hours minutes).append [if negative then '-' else '+']
    exact isBlank_of_endsInDigit (hend.append cs)

theorem trimChars_date (before after : Blanks) (d : Date) (rest : List Char)
    (hlast : ∀ c ∈ (dateText d ++ rest).getLast?, isBlank c = false) :
    trimChars (around before after (dateText d ++ rest)).toList = dateText d ++ rest := by
  obtain ⟨c, cs, hcs, hc⟩ := exists_cons_padded 3 d.year.toNat
  rw [around, String.toList_ofList]
  refine trimChars_around before.2 after.2 ?_ ?_ hlast
  · simp [dateText, hcs]
  · simpa [dateText, hcs] using isBlank_of_isDigit hc

/-! ## The shapes of a text with a date -/

def Gap.part : Gap → Part
  | letter => .literal 'T'
  | space => .blanks

/-- What the shapes with a time want after the gap and the minutes. -/
def timed : List (Gap × List Part) :=
  [(.letter, secondParts ++ [.field .offset]), (.space, secondParts ++ [.field .offset]),
    (.letter, [.field .offset]), (.letter, secondParts), (.space, secondParts), (.letter, [])]

theorem shapes_eq :
    shapes =
      timed.map (fun x => dateParts ++ x.1.part :: (hourParts ++ x.2)) ++ [dateParts ++ []] :=
  rfl

/-- What may follow the minutes after such a gap. After a space the seconds have to. -/
def Gap.endings (g : Gap) : List (List Part) := (timed.filter (·.1 = g)).map (·.2)

theorem findSome?_endings {β : Type} (g : Gap) (f : List Part → Option β) :
    (timed.findSome? fun x => if x.1 = g then f x.2 else none) = g.endings.findSome? f := by
  rw [Gap.endings, List.findSome?_map]
  induction timed with
  | nil => rfl
  | cons x xs ih =>
    by_cases hx : x.1 = g <;> simp [List.findSome?_cons, hx, ih]

theorem readShape?_gap (g g' : Gap) {hour minute : Nat} (hhour : hour < 100)
    (hminute : minute < 100) (parts : List Part) (r : Reading) (rest : List Char) :
    readShape? (g.part :: (hourParts ++ parts)) r (g'.char :: (hourText hour minute ++ rest)) =
      if g = g' then readShape? parts { r with hour := hour, minute := minute } rest
      else none := by
  have hread := readShape?_hour hhour hminute parts r rest
  have hspace : trimStartChars (' ' :: (hourText hour minute ++ rest)) =
      hourText hour minute ++ rest := by
    rw [trimStartChars_cons_blank _ _ (by decide)]
    simp [hourText, trimStartChars_padded]
  have hletter (cs : List Char) : readShape? (hourParts ++ parts) r ('T' :: cs) = none := by
    have hnumber : readField? .hour r ('T' :: cs) = none := rfl
    simp [hourParts, readShape?, hnumber]
  have htrim (cs : List Char) : trimStartChars ('T' :: cs) = 'T' :: cs :=
    trimStartChars_cons_of_not_blank _ _ (by decide)
  cases g <;> cases g' <;> simp [Gap.part, Gap.char, readShape?, hread, hspace, hletter, htrim]

theorem monthLength_le (year : Int) (month : Nat) : Date.monthLength year month ≤ 31 := by
  unfold Date.monthLength
  repeat' split
  all_goals omega

theorem Day.bounds (d : Day) : d.date.month < 100 ∧ d.date.day < 100 := by
  have h := d.isValid
  have hle := monthLength_le d.date.year d.date.month
  simp only [Date.isValid, Bool.and_eq_true, decide_eq_true_eq] at h
  omega

/-- The date and the minutes, with more to be read. -/
def Day.reading (d : Day) (hour minute : Nat) : Reading :=
  { year := d.date.year, month := d.date.month, day := d.date.day, hour, minute }

theorem findSome?_shapes (d : Day) (g : Gap) {hour minute : Nat} (hhour : hour < 100)
    (hminute : minute < 100) (rest : List Char) :
    (shapes.findSome? fun shape =>
        (readShape? shape {}
          (dateText d.date ++ g.char :: (hourText hour minute ++ rest))).bind (·.moment?)) =
      g.endings.findSome? fun parts =>
        (readShape? parts (d.reading hour minute) rest).bind (·.moment?) := by
  have hdate (parts : List Part) (cs : List Char) :=
    readShape?_date d.year_fits d.bounds.1 d.bounds.2 parts {} cs
  have hnone (r : Reading) (c : Char) (cs : List Char) : readShape? [] r (c :: cs) = none := rfl
  rw [shapes_eq, List.findSome?_append, List.findSome?_map, ← findSome?_endings]
  simp only [Function.comp_def, hdate, readShape?_gap _ _ hhour hminute, List.findSome?_cons, hnone,
    List.findSome?_nil, Option.bind_none, Option.or_none]
  congr 1
  funext x
  split <;> rfl

theorem findSome?_shapes_date (d : Day) :
    (shapes.findSome? fun shape => (readShape? shape {} (dateText d.date)).bind (·.moment?)) =
      (d.reading 0 0).moment? := by
  have hdate (parts : List Part) :=
    readShape?_date d.year_fits d.bounds.1 d.bounds.2 parts {} []
  simp only [List.append_nil] at hdate
  rw [shapes_eq, List.findSome?_append, List.findSome?_map]
  simp only [Function.comp_def, List.findSome?_singleton, hdate]
  -- Nothing is left of the text for a shape with a time, whatever the date.
  rfl

/-! ## The moment -/

/-- Whatever offset is read after it, the reading gives the moment. -/
def Reading.Gives (r : Reading) (m : Moment) : Prop :=
  ∀ offset : Option Int, (∀ n ∈ offset, n.natAbs < 86400) → { r with offset }.moment? = some m

theorem gives_of_day {r : Reading} (d : Day) (hdate : r.date = d.date) (hhour : r.hour ≤ 23)
    (hminute : r.minute ≤ 59) (hsecond : r.second ≤ 59) :
    r.Gives ⟨d.date, r.hour, r.minute, r.second, r.nanosecond⟩ := by
  intro offset hoffset
  have hday : { r with offset }.date = d.date := hdate
  have hmoment : { r with offset }.moment =
      ⟨d.date, r.hour, r.minute, r.second, r.nanosecond⟩ := by
    rw [Reading.moment, if_neg (by dsimp only; omega), hday]
  -- An offset is less than a day, so it matters on the first and the last date only.
  have hfirst : (d.date == Date.first) = false := by
    have := d.year_fits
    simp only [beq_eq_false_iff_ne, ne_eq]
    intro h
    simp [h, Date.first, Date.minYear] at this
  have hlast : (d.date == Date.last) = false := by
    have := d.year_fits
    simp only [beq_eq_false_iff_ne, ne_eq]
    intro h
    simp [h, Date.last, Date.maxYear] at this
  have hfits : { r with offset }.offsetFits = true := by
    cases offset with
    | none => rfl
    | some offset =>
      simp [Reading.offsetFits, hday, hfirst, hlast, Moment.secondsPerDay, hoffset offset rfl]
  simp only [Reading.moment?, hday, d.isValid, hfits, hmoment, decide_eq_true hhour,
    decide_eq_true hminute, decide_eq_true (Nat.le_succ_of_le hsecond), Bool.and_self, if_true]

/-! ## Reading what is written -/

theorem parse?_endings (w : WallClock) (suffix : Suffix) (before after : Blanks) :
    parse? (w.text suffix before after) =
      w.gap.endings.findSome? fun parts =>
        (readShape? parts (w.day.reading w.hour w.minute)
          (w.seconds.text ++ suffix.zone)).bind (·.moment?) := by
  have hend : EndsInDigit (dateText w.day.date ++ w.timeText) := (endsInDigit_timeText w).append _
  have hlast := isBlank_of_suffix hend suffix
  rw [List.append_assoc] at hlast
  rw [parse?, WallClock.text, List.append_assoc, trimChars_date _ _ _ _ hlast, ← List.append_assoc,
    expandZulu_suffix hend, ← findSome?_shapes w.day w.gap (by omega) (by omega)]
  simp [WallClock.timeText]

theorem endsFraction_zone (s : Suffix) : EndsFraction s.zone := by
  rcases s.zone_cases with h | ⟨negative, hours, minutes, -, -, h⟩
  · simp [h, EndsFraction]
  · rw [h]
    cases negative <;> rintro _ ⟨⟩ <;> decide

theorem endings_letter : Gap.letter.endings =
    [secondParts ++ [.field .offset], [.field .offset], secondParts ++ [], []] :=
  rfl

theorem endings_space : Gap.space.endings =
    [secondParts ++ [.field .offset], secondParts ++ []] :=
  rfl

theorem natAbs_offsetSeconds {hours minutes : Nat} (negative : Bool) (hhours : hours ≤ 23)
    (hminutes : minutes ≤ 59) : (offsetSeconds negative hours minutes).natAbs < 86400 := by
  cases negative <;> simp only [offsetSeconds] <;> omega

theorem read_zone {r : Reading} {m : Moment} (h : r.Gives m) (hnone : r.offset = none)
    (suffix : Suffix) :
    (readShape? [.field .offset] r suffix.zone).bind (·.moment?) = some m ∨
      suffix.zone = [] ∧ (readShape? [.field .offset] r suffix.zone).bind (·.moment?) = none ∧
        (readShape? [] r suffix.zone).bind (·.moment?) = some m := by
  rcases suffix.zone_cases with hzone | ⟨negative, hours, minutes, hhours, hminutes, hzone⟩
  · have hbare : r.moment? = some m := by
      rw [← h none (by simp), ← hnone]
    refine .inr ⟨hzone, ?_, ?_⟩
    · rw [hzone, readShape?_no_offset (by simp)]
      rfl
    · rw [hzone]
      exact hbare
  · refine .inl ?_
    rw [hzone, readShape?_offset negative (by omega) hminutes]
    refine h _ fun n hn => ?_
    cases hn
    exact natAbs_offsetSeconds negative hhours hminutes

theorem findSome?_second {r : Reading} {second places fraction : Nat} (g : Gap) (suffix : Suffix)
    (hsecond : second < 100) (hplaces : places ≤ 9) (hfraction : fraction < 10 ^ places)
    (hnone : r.offset = none) {m : Moment}
    (hm : { r with second, nanosecond := fraction * 10 ^ (9 - places) }.Gives m) :
    (g.endings.findSome? fun parts =>
      (readShape? parts r (secondText second places fraction ++ suffix.zone)).bind (·.moment?)) =
        some m := by
  have hread (parts : List Part) := readShape?_second hsecond hplaces hfraction parts r
    (endsFraction_zone suffix)
  have hcolon (cs : List Char) :
      readShape? [.field .offset] r (secondText second places fraction ++ cs) = none :=
    readShape?_no_offset (by simp [secondText]) r
  rcases read_zone hm hnone suffix with h | ⟨-, h, hbare⟩
  · cases g <;> simp only [endings_letter, endings_space, List.findSome?_cons, hread, h]
  · cases g <;>
      simp only [endings_letter, endings_space, List.findSome?_cons, hread, hcolon, h, hbare,
        Option.bind_none]

theorem findSome?_no_second {r : Reading} (g : Gap) (suffix : Suffix) (hnone : r.offset = none)
    {m : Moment} (hm : r.Gives m) :
    (g.endings.findSome? fun parts => (readShape? parts r suffix.zone).bind (·.moment?)) =
        if g = .letter then some m else none := by
  have hcolon : ∀ c ∈ suffix.zone.head?, c ≠ ':' := by
    rcases suffix.zone_cases with hzone | ⟨negative, hours, minutes, -, -, hzone⟩
    · simp [hzone]
    · cases negative <;> simp [hzone, offsetText]
  have hread (parts : List Part) := readShape?_no_second hcolon parts r
  cases g with
  | space => simp only [endings_space, List.findSome?_cons, hread, Option.bind_none]; rfl
  | letter =>
    rcases read_zone hm hnone suffix with h | ⟨-, h, hbare⟩
    · simp only [endings_letter, List.findSome?_cons, hread, Option.bind_none, h, if_true]
    · simp only [endings_letter, List.findSome?_cons, hread, Option.bind_none, h, hbare, if_true]

theorem parse?_given (day : Day) (gap : Gap) (hour : Fin 24) (minute second : Fin 60)
    (places : Fin 10) (fraction : Fin (10 ^ places.val)) (suffix : Suffix) (before after : Blanks) :
    parse? ((⟨day, gap, hour, minute, .given second places fraction⟩ : WallClock).text suffix before
        after) =
      some ⟨day.date, hour, minute, second, fraction * 10 ^ (9 - places.val)⟩ := by
  rw [parse?_endings]
  exact findSome?_second gap suffix (by omega) (by omega) fraction.2 rfl
    (gives_of_day day rfl (by simp [Day.reading]; omega) (by simp [Day.reading]; omega)
      (by dsimp only; omega))

theorem parse?_omitted (day : Day) (gap : Gap) (hour : Fin 24) (minute : Fin 60) (suffix : Suffix)
    (before after : Blanks) :
    parse? ((⟨day, gap, hour, minute, .omitted⟩ : WallClock).text suffix before after) =
      if gap = .letter then some ⟨day.date, hour, minute, 0, 0⟩ else none := by
  rw [parse?_endings]
  exact findSome?_no_second gap suffix rfl
    (gives_of_day day rfl (by simp [Day.reading]; omega) (by simp [Day.reading]; omega)
      (by simp [Day.reading]))

theorem parse?_date (day : Day) (before after : Blanks) :
    parse? (around before after (dateText day.date)) = some ⟨day.date, 0, 0, 0, 0⟩ := by
  have hend := endsInDigit_dateText day.date
  have htrim := trimChars_date before after day.date [] (by
    simpa using isBlank_of_endsInDigit hend)
  rw [List.append_nil] at htrim
  have hgives : (day.reading 0 0).Gives ⟨day.date, 0, 0, 0, 0⟩ :=
    gives_of_day day rfl (Nat.zero_le _) (Nat.zero_le _) (Nat.zero_le _)
  rw [parse?, htrim, expandZulu_of_digit hend, findSome?_shapes_date]
  exact hgives none (by simp)

/-! ## Seconds that are left out -/

/-- The seconds may be left out exactly after a `T`. A text with a space and without seconds is not
read at all, though it is with zero seconds. -/
theorem parse?_without_seconds (day : Day) (gap : Gap) (hour : Fin 24) (minute : Fin 60)
    (suffix : Suffix) (before after : Blanks) :
    let short : WallClock := ⟨day, gap, hour, minute, .omitted⟩
    let full : WallClock := ⟨day, gap, hour, minute, .given 0 0 0⟩
    parse? (full.text suffix before after) = some ⟨day.date, hour, minute, 0, 0⟩ ∧
      parse? (short.text suffix before after) =
        (if gap = .letter then some ⟨day.date, hour, minute, 0, 0⟩ else none) ∧
      (parse? (short.text suffix before after) = parse? (full.text suffix before after) ↔
        gap = .letter) := by
  intro short full
  have hfull : parse? (full.text suffix before after) = some ⟨day.date, hour, minute, 0, 0⟩ := by
    simpa using parse?_given day gap hour minute 0 0 0 suffix before after
  have hshort := parse?_omitted day gap hour minute suffix before after
  refine ⟨hfull, hshort, ?_⟩
  rw [hfull, hshort]
  cases gap <;> simp

/-- A space between date and time, and no seconds. -/
theorem short_time_after_space_missed :
    parse? "2025-01-15 14:30" = none ∧
      parse? "2025-01-15 14:30:00" = some ⟨⟨2025, 1, 15⟩, 14, 30, 0, 0⟩ := by
  constructor <;> decide +kernel

end CalendarRules.Stamp
