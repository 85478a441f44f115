import CalendarRules.Proofs.Query.Catalog
import CalendarRules.Proofs.Text.Refold
import CalendarRules.Proofs.Time.Calendar

/-!
# Time terms part the events

An event whose start can be read is on one day of the week, and before, at or after any time of day
that is asked for. No other event is found by its time. An event that lasts whole days starts at
midnight and ends on a later date.
-/

namespace CalendarRules

open Text

/-! ## Times of day as they are asked for -/

/-- One or two digits for the hours and two for the minutes. They do not have to be a time of the
clock. -/
structure AskedTime where
  hours : List Char
  minutes : List Char
  length_hours : hours.length = 1 ∨ hours.length = 2
  length_minutes : minutes.length = 2
  isDigit : ∀ c ∈ hours ++ minutes, c.isDigit = true

namespace AskedTime

def text (t : AskedTime) : List Char := t.hours ++ ':' :: t.minutes

/-- The minutes after midnight. -/
def minuteOfDay (t : AskedTime) : Nat := 60 * Stamp.ofDigits t.hours + Stamp.ofDigits t.minutes

end AskedTime

/-- What stands in front of a time of day. -/
def Comparison.sign : Comparison → List Char
  | less => ['<']
  | lessOrEqual => ['<', '=']
  | equal => []
  | greaterOrEqual => ['>', '=']
  | greater => ['>']

/-- How the first number compares with the second. -/
def Comparison.ofOrder (a b : Nat) : Comparison :=
  if a < b then .less else if a = b then .equal else .greater

theorem Comparison.ofOrder_mem (a b : Nat) :
    ofOrder a b ∈ [less, equal, greater] := by
  unfold ofOrder
  split
  · simp
  · split <;> simp

theorem Comparison.holds_iff {c : Comparison} (hc : c ∈ [less, equal, greater]) (a b : Nat) :
    c.holds a b = true ↔ c = ofOrder a b := by
  simp only [List.mem_cons, List.not_mem_nil, or_false] at hc
  unfold ofOrder
  rcases hc with rfl | rfl | rfl <;> grind [holds]

namespace AskedTime

variable (t : AskedTime)

def value (c : Comparison) : String := String.ofList (c.sign ++ t.text)

/-- The query that compares the start of an event with the time. -/
def query (c : Comparison) : Query := .only .timeOfDay (t.value c)

theorem fold_value (c : Comparison) : fold (t.value c) = t.value c := by
  refine fold_eq_self ?_
  have hsign : ∀ d ∈ c.sign, lowerChar d = [d] ∧ isQuoteMark d = false := by
    cases c <;> simp [Comparison.sign, lowerChar, isQuoteMark]
  have hdigits := fun d hd => lowerChar_of_isDigit (t.isDigit d hd)
  rw [List.forall_mem_append] at hdigits
  simp only [text, List.forall_mem_append, List.forall_mem_cons]
  exact ⟨hsign, hdigits.1, by decide, hdigits.2⟩

theorem exists_digit : ∃ d ds, t.text = d :: ds ∧ d.isDigit = true := by
  have hne : t.hours ≠ [] := by
    rintro hnil
    have := t.length_hours
    simp [hnil] at this
  obtain ⟨d, ds, hds⟩ := List.exists_cons_of_ne_nil hne
  exact ⟨d, ds ++ ':' :: t.minutes, by simp [text, hds], t.isDigit d (by simp [hds])⟩

theorem readComparison_sign (c : Comparison) (rest : List Char) :
    TimeTarget.readComparison (c.sign ++ (t.text ++ rest)) = (c, t.text ++ rest) := by
  obtain ⟨d, ds, hds, hd⟩ := t.exists_digit
  rw [hds]
  have hne (x : Char) (hx : x.isDigit = false) : d ≠ x := by
    rintro rfl
    rw [hd] at hx
    cases hx
  have hgreater := hne '>' rfl
  have hless := hne '<' rfl
  have hequal := hne '=' rfl
  cases c <;> simp [Comparison.sign, TimeTarget.readComparison, hgreater, hless, hequal]

theorem takeWhile_text (rest : List Char) :
    (t.text ++ rest).takeWhile Char.isDigit = t.hours := by
  have hhours := (List.forall_mem_append.mp t.isDigit).1
  have hrun := takeWhile_run Char.isDigit t.hours (':' :: t.minutes ++ rest) hhours (by simp)
  simpa [text] using hrun.1

theorem readMinutes?_text (rest : List Char) :
    TimeTarget.readMinutes? (t.text ++ rest) = some t.minuteOfDay := by
  have hminutes := (List.forall_mem_append.mp t.isDigit).2
  obtain ⟨a, b, hab⟩ := List.length_eq_two.mp t.length_minutes
  have hdrop : (t.text ++ rest).drop t.hours.length = ':' :: a :: b :: rest := by
    simp [text, hab]
  have hlength : (t.hours.length = 1 || t.hours.length = 2) = true := by
    simpa using t.length_hours
  rw [hab] at hminutes
  rw [TimeTarget.readMinutes?, takeWhile_text, hdrop]
  simp only [hlength, if_true, hminutes a (by simp), hminutes b (by simp), Bool.and_self,
    minuteOfDay, hab, Nat.mul_comm]

theorem ofString?_of_toList {v : String} {c : Comparison} {rest : List Char}
    (h : v.toList = c.sign ++ (t.text ++ rest)) :
    TimeTarget.ofString? v = some ⟨c, t.minuteOfDay⟩ := by
  rw [TimeTarget.ofString?, h, readComparison_sign]
  dsimp only
  rw [readMinutes?_text, Option.map_some]

theorem ofString?_value (c : Comparison) :
    TimeTarget.ofString? (t.value c) = some ⟨c, t.minuteOfDay⟩ := by
  have hvalue : (t.value c).toList = c.sign ++ (t.text ++ []) := by simp [value]
  exact t.ofString?_of_toList hvalue

section Comparisons

variable {e : Event} {m : Moment}

theorem holds_query (h : e.start? = some m) (c : Comparison) :
    (t.query c).holds e = c.holds m.minuteOfDay t.minuteOfDay := by
  rw [query, Query.holds_only, Property.holds, fold_value, ofString?_value, h]
  rfl

theorem existsUnique_query (h : e.start? = some m) :
    ∃! c, c ∈ [Comparison.less, .equal, .greater] ∧ (t.query c).holds e = true := by
  simp only [t.holds_query h]
  refine ⟨.ofOrder m.minuteOfDay t.minuteOfDay, ⟨?_, ?_⟩, ?_⟩
  · exact Comparison.ofOrder_mem ..
  · exact (Comparison.holds_iff (Comparison.ofOrder_mem ..) ..).mpr rfl
  · rintro c ⟨hc, hholds⟩
    exact (Comparison.holds_iff hc ..).mp hholds

theorem holds_lessOrEqual_iff (h : e.start? = some m) :
    (t.query .lessOrEqual).holds e = true ↔
      (t.query .less).holds e = true ∨ (t.query .equal).holds e = true := by
  simp only [t.holds_query h, Comparison.holds, decide_eq_true_eq, beq_iff_eq]
  exact Nat.le_iff_lt_or_eq

theorem holds_greaterOrEqual_iff (h : e.start? = some m) :
    (t.query .greaterOrEqual).holds e = true ↔
      (t.query .greater).holds e = true ∨ (t.query .equal).holds e = true := by
  simp only [t.holds_query h, Comparison.holds, decide_eq_true_eq, beq_iff_eq]
  omega

theorem holds_query_mono (h : e.start? = some m) {t' : AskedTime}
    (hle : t.minuteOfDay ≤ t'.minuteOfDay) {c : Comparison}
    (hc : c ∈ [Comparison.less, .lessOrEqual]) (hholds : (t.query c).holds e = true) :
    (t'.query c).holds e = true := by
  rw [holds_query _ h] at hholds ⊢
  simp only [List.mem_cons, List.not_mem_nil, or_false] at hc
  rcases hc with rfl | rfl <;> simp only [Comparison.holds, decide_eq_true_eq] at hholds ⊢ <;> omega

end Comparisons

end AskedTime

/-! ## Days of the week -/

/-- The days of the week with their short names, from Monday on. -/
def dayNames : List (String × String) :=
  [("monday", "mon"), ("tuesday", "tue"), ("wednesday", "wed"), ("thursday", "thu"),
    ("friday", "fri"), ("saturday", "sat"), ("sunday", "sun")]

theorem weekday?_dayNames : ∀ i : Fin 7, Compare.weekday? (fold (dayNames.get i).1) = some i.val ∧
    Compare.weekday? (fold (dayNames.get i).2) = some i.val := by
  decide +kernel

theorem holds_dayOfWeek {e : Event} {m : Moment} (h : e.start? = some m) (i : Fin 7) :
    (Query.only .dayOfWeek (dayNames.get i).1).holds e = (m.date.weekday == i.val) ∧
      (Query.only .dayOfWeek (dayNames.get i).2).holds e = (m.date.weekday == i.val) := by
  obtain ⟨hname, hshort⟩ := weekday?_dayNames i
  rw [Query.holds_only, Query.holds_only, Property.holds, Property.holds, h, hname, hshort]
  exact ⟨rfl, rfl⟩

theorem existsUnique_day {e : Event} {m : Moment} (h : e.start? = some m) :
    ∃! day, day ∈ dayNames ∧ (Query.only .dayOfWeek day.1).holds e = true := by
  let own : Fin 7 := ⟨m.date.weekday, m.date.weekday_lt⟩
  refine ⟨dayNames.get own, ⟨List.get_mem .., ?_⟩, ?_⟩
  · rw [(holds_dayOfWeek h own).1]
    exact beq_self_eq_true _
  · rintro day ⟨hmem, hday⟩
    obtain ⟨i, rfl⟩ := List.mem_iff_get.mp hmem
    have hsame := (holds_dayOfWeek h i).1.symm.trans hday
    have hi : i = own := Fin.ext (beq_iff_eq.mp hsame).symm
    rw [hi]

/-! ## Whole days -/

namespace Event

theorem holds_isAllDay (e : Event) :
    (Query.only .isAllDay "yes").holds e = (e.isAllDay? == some true) ∧
      (Query.only .isAllDay "no").holds e = (e.isAllDay? == some false) := by
  rw [Query.holds_only, Query.holds_only]
  exact Compare.agrees_words e.isAllDay?

theorem isSome_isAllDay?_iff (e : Event) :
    e.isAllDay?.isSome = true ↔ e.start? ≠ none ∧ e.end? ≠ none := by
  unfold isAllDay?
  cases e.start? <;> cases e.end? <;> simp

theorem onClock_of_bind {t : Option String} {m : Moment} (h : t.bind Stamp.parse? = some m) :
    m.OnClock := by
  obtain ⟨raw, -, hraw⟩ := Option.bind_eq_some_iff.mp h
  exact Stamp.parse?_onClock hraw

theorem midnights_of_isAllDay {e : Event} (h : e.isAllDay? = some true) :
    ∃ start stop, e.start? = some start ∧ e.end? = some stop ∧ start.minuteOfDay = 0 ∧
      start.date.Before stop.date ∧ start.date.dayNumber + 1 ≤ stop.date.dayNumber := by
  obtain ⟨start, hstart, h⟩ := Option.bind_eq_some_iff.mp h
  obtain ⟨stop, hstop, h⟩ := Option.bind_eq_some_iff.mp h
  have hfrom := onClock_of_bind hstart
  have hto := onClock_of_bind hstop
  simp only [Option.some.injEq, Bool.and_eq_true, beq_iff_eq, decide_eq_true_eq] at h
  obtain ⟨⟨hmidnight, hmidnight'⟩, hlength⟩ := h
  have hnumber : start.date.dayNumber + 1 ≤ stop.date.dayNumber := by
    -- A fraction of a second, or even a leap second, cannot make up for a day.
    have hlt : stop.nanosecond < 2 * 10 ^ 9 := by
      have := hto.nanosecond
      split at this <;> omega
    simp only [nanosecondsPerDay, Moment.instant, Moment.secondsPerDay,
      Moment.nanosecondsPerSecond, hmidnight, hmidnight'] at hlength
    omega
  have hminute : start.minuteOfDay = 0 := by
    unfold Moment.secondOfDay at hmidnight
    unfold Moment.minuteOfDay
    omega
  exact ⟨start, stop, hstart, hstop, hminute,
    (Date.dayNumber_lt_iff hfrom.date hto.date).mp (by omega), hnumber⟩

end Event

/-! ## The theorem -/

theorem not_found_of_no_start {e : Event} (h : e.start? = none) (value : String) :
    (Query.only .dayOfWeek value).holds e = false ∧
      (Query.only .timeOfDay value).holds e = false := by
  rw [Query.holds_only, Query.holds_only, Property.holds, Property.holds, h]
  exact ⟨rfl, rfl⟩

/-- An event without a start that can be read is found by no day and no time of day. Any other event
is found by one day of the week, and by one of "before", "at" and "after" for any time of day. An
event whose ends can both be read lasts whole days or does not, and if it does it starts at midnight
and ends on a later date. -/
theorem Event.time_terms_partition (e : Event) :
    (e.start? = none → ∀ value, (Query.only .dayOfWeek value).holds e = false ∧
        (Query.only .timeOfDay value).holds e = false) ∧
      (e.start? ≠ none →
        (∃! day, day ∈ dayNames ∧ (Query.only .dayOfWeek day.1).holds e = true) ∧
          (∀ day ∈ dayNames, (Query.only .dayOfWeek day.2).holds e =
            (Query.only .dayOfWeek day.1).holds e) ∧
          ∀ t : AskedTime,
            (∃! c, c ∈ [Comparison.less, .equal, .greater] ∧ (t.query c).holds e = true) ∧
              ((t.query .lessOrEqual).holds e = true ↔
                (t.query .less).holds e = true ∨ (t.query .equal).holds e = true) ∧
              ((t.query .greaterOrEqual).holds e = true ↔
                (t.query .greater).holds e = true ∨ (t.query .equal).holds e = true) ∧
              ∀ t' : AskedTime, t.minuteOfDay ≤ t'.minuteOfDay →
                ∀ c ∈ [Comparison.less, .lessOrEqual], (t.query c).holds e = true →
                  (t'.query c).holds e = true) ∧
      ((Query.only .isAllDay "yes").holds e = true → (Query.only .isAllDay "no").holds e = false) ∧
      ((Query.only .isAllDay "yes").holds e ≠ (Query.only .isAllDay "no").holds e ↔
        e.start? ≠ none ∧ e.end? ≠ none) ∧
      ((Query.only .isAllDay "yes").holds e = true →
        (Query.only .timeOfDay "00:00").holds e = true ∧
          ∃ start stop, e.start? = some start ∧ e.end? = some stop ∧
            start.date.Before stop.date ∧ start.date.dayNumber + 1 ≤ stop.date.dayNumber) := by
  refine ⟨not_found_of_no_start, ?_, ?_, ?_, ?_⟩
  · intro hstart
    obtain ⟨m, hm⟩ := Option.ne_none_iff_exists'.mp hstart
    refine ⟨existsUnique_day hm, ?_, fun t => ⟨t.existsUnique_query hm,
      t.holds_lessOrEqual_iff hm, t.holds_greaterOrEqual_iff hm,
      fun t' hle c hc => t.holds_query_mono hm hle hc⟩⟩
    intro day hday
    obtain ⟨i, rfl⟩ := List.mem_iff_get.mp hday
    rw [(holds_dayOfWeek hm i).1, (holds_dayOfWeek hm i).2]
  · rw [e.holds_isAllDay.1, e.holds_isAllDay.2]
    intro h
    rw [beq_iff_eq.mp h]
    rfl
  · rw [e.holds_isAllDay.1, e.holds_isAllDay.2, ← e.isSome_isAllDay?_iff]
    rcases e.isAllDay? with _ | _ | _ <;> decide
  · rw [e.holds_isAllDay.1, beq_iff_eq]
    intro h
    obtain ⟨start, stop, hstart, hstop, hminute, hdates⟩ := midnights_of_isAllDay h
    refine ⟨?_, start, stop, hstart, hstop, hdates⟩
    let midnight : AskedTime := ⟨['0', '0'], ['0', '0'], by simp, rfl, by simp⟩
    have hmidnight := midnight.holds_query hstart .equal
    rw [hminute] at hmidnight
    exact hmidnight

/-- An hour that no clock shows, a start that cannot be read, and a day that ends a little after
midnight. -/
theorem Event.time_terms_partition_late :
    let soon : Event := { startTime := some "soon" }
    let late : Event := { startTime := some "2025-01-15T23:30:00-05:00" }
    let whole : Event := { startTime := some "2025-01-15", endTime := some "2025-01-16 00:00:00.5" }
    let t : AskedTime := ⟨['2', '4'], ['0', '0'], .inr rfl, rfl, by simp⟩
    let t' : AskedTime := ⟨['9', '9'], ['9', '9'], .inr rfl, rfl, by simp⟩
    (soon.start? = none ∧ (Query.only .timeOfDay ">=0:00").holds soon = false) ∧
      (late.start? ≠ none ∧ t.minuteOfDay ≤ t'.minuteOfDay ∧ (t.query .less).holds late = true ∧
        (t'.query .less).holds late = true) ∧
      (Query.only .isAllDay "yes").holds whole = true ∧
      (Query.only .timeOfDay "00:00").holds whole = true := by
  intro soon late whole t t'
  have hsoon : soon.start? = none := by decide +kernel
  have hlate : late.start? ≠ none := by decide +kernel
  have hle : t.minuteOfDay ≤ t'.minuteOfDay := by decide
  have hless : (t.query .less).holds late = true := by decide +kernel
  have hwhole : (Query.only .isAllDay "yes").holds whole = true := by decide +kernel
  obtain ⟨-, -, htimes⟩ := (time_terms_partition late).2.1 hlate
  exact ⟨⟨hsoon, ((time_terms_partition soon).1 hsoon _).2⟩,
    ⟨hlate, hle, hless, (htimes t).2.2.2 t' hle .less (by simp) hless⟩,
    hwhole, ((time_terms_partition whole).2.2.2.2 hwhole).1⟩

end CalendarRules
