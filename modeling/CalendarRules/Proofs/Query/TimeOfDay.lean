import CalendarRules.Proofs.Query.TimeTerms
import CalendarRules.Proofs.Text.Bytes

/-!
# How a time of day is asked for

A value asks for a time of day when it begins with one. There may be a sign in front of the time and
anything behind it.
-/

namespace CalendarRules

open Stamp Text

/-! ## The beginning of a value -/

namespace AskedTime

/-- The value begins with the time, and with the sign of the comparison in front of it. -/
def Opens (t : AskedTime) (c : Comparison) (value : String) : Prop :=
  c.sign ++ t.text <+: value.toList

variable {t : AskedTime} {c : Comparison} {value : String}

theorem Opens.exists_rest (h : t.Opens c value) :
    ∃ rest, value.toList = c.sign ++ (t.text ++ rest) := by
  obtain ⟨rest, hrest⟩ := h
  exact ⟨rest, by rw [← hrest, List.append_assoc]⟩

theorem Opens.ofString?_eq (h : t.Opens c value) :
    TimeTarget.ofString? value = some ⟨c, t.minuteOfDay⟩ := by
  obtain ⟨rest, hrest⟩ := h.exists_rest
  exact t.ofString?_of_toList hrest

theorem Opens.takeWhile_isDigit (h : t.Opens c value) :
    (value.toList.drop c.sign.length).takeWhile Char.isDigit = t.hours := by
  obtain ⟨rest, hrest⟩ := h.exists_rest
  rw [hrest, List.drop_left, takeWhile_text]

theorem minuteOfDay_eq (t : AskedTime) :
    t.minuteOfDay =
      60 * Nat.ofDigitChars 10 t.hours 0 + Nat.ofDigitChars 10 t.minutes 0 := rfl

theorem minuteOfDay_le (t : AskedTime) : t.minuteOfDay ≤ 99 * 60 + 99 := by
  obtain ⟨hhours, hminutes⟩ := List.forall_mem_append.mp t.isDigit
  have hhour : ofDigits t.hours < 100 :=
    calc ofDigits t.hours < 10 ^ t.hours.length := ofDigits_lt hhours
      _ ≤ 10 ^ 2 := Nat.pow_le_pow_right (by omega) (by have := t.length_hours; omega)
  have hminute := ofDigits_lt hminutes
  rw [t.length_minutes] at hminute
  unfold minuteOfDay
  omega

end AskedTime

namespace TimeTarget

theorem sign_readComparison (cs : List Char) :
    (readComparison cs).1.sign ++ (readComparison cs).2 = cs := by
  fun_cases readComparison cs <;> rfl

theorem readMinutes?_eq (cs : List Char) :
    readMinutes? cs =
      let hours := cs.takeWhile Char.isDigit
      if hours.length = 1 || hours.length = 2 then
        ([':'].isPrefixOf? (cs.drop hours.length)).bind fun rest =>
          (readTwoDigits? rest).map fun (minutes, _) => ofDigits hours * 60 + minutes
      else none := by
  unfold readMinutes?
  generalize cs.takeWhile Char.isDigit = hours
  dsimp only
  split
  case isFalse => rfl
  case isTrue =>
    split
    case h_1 a b rest hrest =>
      rw [hrest]
      simp only [List.isPrefixOf?, beq_self_eq_true, if_true, Option.bind_some, readTwoDigits?]
      split <;> rfl
    case h_2 hno =>
      -- The pattern asks for all three characters at once, and one of them is missing.
      refine (Option.bind_eq_none_iff.mpr fun rest hrest => ?_).symm
      have hcolon := List.append_eq_of_isPrefixOf?_eq_some hrest
      rw [Option.map_eq_none_iff]
      unfold readTwoDigits?
      split
      · exact (hno _ _ _ hcolon.symm).elim
      · rfl

theorem exists_of_readTwoDigits? {cs rest : List Char} {n : Nat}
    (h : readTwoDigits? cs = some (n, rest)) :
    ∃ ds, cs = ds ++ rest ∧ ds.length = 2 ∧ (∀ d ∈ ds, d.isDigit = true) ∧ ofDigits ds = n := by
  unfold readTwoDigits? at h
  split at h
  case h_2 => cases h
  case h_1 a b after =>
    split at h
    case isFalse => cases h
    case isTrue hab =>
      cases h
      exact ⟨[a, b], rfl, rfl, by simpa using hab, rfl⟩

theorem exists_of_readMinutes? {cs : List Char} {n : Nat} (h : readMinutes? cs = some n) :
    ∃ t : AskedTime, t.text <+: cs ∧ t.minuteOfDay = n := by
  have hrun : ∀ d ∈ cs.takeWhile Char.isDigit, d.isDigit = true := fun _ => List.mem_takeWhile_imp
  have hwhole := takeWhile_append_drop Char.isDigit cs
  rw [readMinutes?_eq] at h
  generalize cs.takeWhile Char.isDigit = hours at h hrun hwhole
  dsimp only at h
  split at h
  case isFalse => cases h
  case isTrue hlength =>
    obtain ⟨after, hcolon, h⟩ := Option.bind_eq_some_iff.mp h
    obtain ⟨⟨minute, rest⟩, hminutes, hn⟩ := Option.map_eq_some_iff.mp h
    obtain ⟨minutes, rfl, htwo, hdigits, rfl⟩ := exists_of_readTwoDigits? hminutes
    let t : AskedTime :=
      ⟨hours, minutes, by simpa using hlength, htwo, List.forall_mem_append.mpr ⟨hrun, hdigits⟩⟩
    refine ⟨t, ⟨rest, ?_⟩, ?_⟩
    · rw [← hwhole, ← List.append_eq_of_isPrefixOf?_eq_some hcolon]
      simp [t, AskedTime.text]
    · rw [← hn, AskedTime.minuteOfDay, Nat.mul_comm]

theorem ofString?_eq_some_iff (value : String) (c : Comparison) (n : Nat) :
    ofString? value = some ⟨c, n⟩ ↔ ∃ t : AskedTime, t.Opens c value ∧ t.minuteOfDay = n := by
  constructor
  · intro h
    have hwhole := sign_readComparison value.toList
    rw [ofString?] at h
    generalize readComparison value.toList = read at h hwhole
    obtain ⟨minutes, hminutes, heq⟩ := Option.map_eq_some_iff.mp h
    cases heq
    obtain ⟨t, htext, hn⟩ := exists_of_readMinutes? hminutes
    refine ⟨t, ?_, hn⟩
    rw [AskedTime.Opens, ← hwhole]
    exact (List.prefix_append_right_inj _).mpr htext
  · rintro ⟨t, hopens, rfl⟩
    exact hopens.ofString?_eq

theorem ofString?_eq_none_iff (value : String) :
    ofString? value = none ↔ ∀ c (t : AskedTime), ¬ t.Opens c value := by
  constructor
  · intro h c t hopens
    rw [hopens.ofString?_eq] at h
    cases h
  · intro h
    refine Option.eq_none_iff_forall_ne_some.mpr fun ⟨c, n⟩ hread => ?_
    obtain ⟨t, hopens, -⟩ := (ofString?_eq_some_iff value c n).mp hread
    exact h c t hopens

theorem holds_timeOfDay_iff (value : String) (e : Event) :
    Property.timeOfDay.holds value e = true ↔
      ∃ m c, ∃ t : AskedTime, e.start? = some m ∧ t.Opens c value ∧
        c.holds m.minuteOfDay t.minuteOfDay = true := by
  rw [Property.holds]
  constructor
  · intro h
    split at h
    case h_2 => cases h
    case h_1 m target hstart htarget =>
      obtain ⟨t, hopens, hminutes⟩ := (ofString?_eq_some_iff value _ _).mp htarget
      exact ⟨m, target.comparison, t, hstart, hopens, hminutes ▸ h⟩
  · rintro ⟨m, c, t, hstart, hopens, hholds⟩
    rw [hstart, hopens.ofString?_eq]
    exact hholds

/-! ## Reading the bytes of a value -/

/-- The sign at the start of the bytes. A longer sign counts before a shorter one. -/
def comparisonOfBytes (bs : List UInt8) : Comparison × List UInt8 :=
  let signs : List Comparison := [.greaterOrEqual, .greater, .lessOrEqual, .less]
  (signs.findSome? fun c => ((bytes c.sign).isPrefixOf? bs).map (c, ·)).getD (.equal, bs)

def twoDigitsOfBytes? (bs : List UInt8) : Option Nat := do
  let (digits, _) ← cut? 2 bs
  if digits.all isDigitByte then some (ofDigitBytes digits) else none

/-- The bytes of the hour are counted and cut off. Nothing comes out at all if that cut is inside a
character. -/
def minutesOfBytes? (bs : List UInt8) : Option (Option Nat) :=
  let count := (bs.takeWhile isDigitByte).length
  if count = 1 || count = 2 then
    (cut? count bs).map fun (hours, rest) => do
      let rest ← (bytes [':']).isPrefixOf? rest
      let minutes ← twoDigitsOfBytes? rest
      some (ofDigitBytes hours * 60 + minutes)
  else some none

def ofBytes? (bs : List UInt8) : Option (Option TimeTarget) :=
  let (comparison, rest) := comparisonOfBytes bs
  (minutesOfBytes? rest).map (·.map (⟨comparison, ·⟩))

theorem comparisonOfBytes_bytes (cs : List Char) :
    comparisonOfBytes (bytes cs) = ((readComparison cs).1, bytes (readComparison cs).2) := by
  have hsign (c : Comparison) :
      (bytes c.sign).isPrefixOf? (bytes cs) = (c.sign.isPrefixOf? cs).map bytes :=
    isPrefixOf?_bytes (by cases c <;> simp [Comparison.sign]) cs
  have hnone (front : List Char) {cs : List Char} (h : ∀ rest, cs = front ++ rest → False) :
      front.isPrefixOf? cs = none :=
    Option.eq_none_iff_forall_ne_some.mpr fun rest hrest =>
      h rest (List.append_eq_of_isPrefixOf?_eq_some hrest).symm
  simp only [comparisonOfBytes, hsign, List.findSome?]
  fun_cases readComparison cs with
  | case1 cs => rfl
  | case2 cs hne =>
    rw [hnone (Comparison.sign .greaterOrEqual) (by simpa [Comparison.sign] using hne)]
    rfl
  | case3 cs => rfl
  | case4 cs hne =>
    rw [hnone (Comparison.sign .lessOrEqual) (by simpa [Comparison.sign] using hne)]
    rfl
  | case5 cs hge hgt hle hlt =>
    rw [hnone _ hge, hnone _ hgt, hnone _ hle, hnone _ hlt]
    rfl

theorem twoDigitsOfBytes?_bytes (cs : List Char) :
    twoDigitsOfBytes? (bytes cs) = (readTwoDigits? cs).map (·.1) := by
  by_cases h : ∃ ds rest, cs = ds ++ rest ∧ ds.length = 2 ∧ ∀ d ∈ ds, d.isDigit = true
  · obtain ⟨ds, rest, rfl, hlength, hds⟩ := h
    have hcut := cut?_bytes ds rest
    rw [length_bytes_digits hds, hlength] at hcut
    have hread : readTwoDigits? (ds ++ rest) = some (ofDigits ds, rest) := by
      obtain ⟨a, b, rfl⟩ := List.length_eq_two.mp hlength
      exact if_pos (by simp [hds a, hds b])
    rw [twoDigitsOfBytes?, hcut, hread, Option.bind_eq_bind, Option.bind_some]
    dsimp only
    rw [if_pos (all_bytes_digits hds), ofDigitBytes_bytes hds]
    rfl
  · have hread : readTwoDigits? cs = none := by
      refine Option.eq_none_iff_forall_ne_some.mpr fun (n, rest) hread => h ?_
      obtain ⟨ds, hcs, hlength, hds, -⟩ := exists_of_readTwoDigits? hread
      exact ⟨ds, rest, hcs, hlength, hds⟩
    rw [hread, Option.map_none, twoDigitsOfBytes?, Option.bind_eq_bind, Option.bind_eq_none_iff]
    rintro ⟨digits, rest⟩ hcut
    -- A character that is cut off or cut into is no digit, and neither is its first byte.
    refine if_neg fun hdigits => h ?_
    exact exists_of_cut?_digits hcut hdigits

theorem minutesOfBytes?_bytes (cs : List Char) :
    minutesOfBytes? (bytes cs) = some (readMinutes? cs) := by
  have hrun : ∀ d ∈ cs.takeWhile Char.isDigit, d.isDigit = true := fun _ => List.mem_takeWhile_imp
  have hwhole := takeWhile_append_drop Char.isDigit cs
  rw [minutesOfBytes?, readMinutes?_eq, takeWhile_bytes]
  generalize cs.takeWhile Char.isDigit = hours at hrun hwhole
  have hcut := cut?_bytes hours (cs.drop hours.length)
  rw [hwhole] at hcut
  rw [length_bytes_digits hrun] at hcut ⊢
  dsimp only
  rw [hcut]
  split
  case isFalse => rfl
  case isTrue =>
    rw [Option.map_some]
    dsimp only
    rw [isPrefixOf?_bytes (by simp), ofDigitBytes_bytes hrun]
    cases [':'].isPrefixOf? (cs.drop hours.length) with
    | none => rfl
    | some rest =>
      simp only [Option.map_some, Option.bind_eq_bind, Option.bind_some, twoDigitsOfBytes?_bytes]
      cases readTwoDigits? rest <;> rfl

theorem ofBytes?_bytes (value : String) :
    ofBytes? (bytes value.toList) = some (ofString? value) := by
  rw [ofBytes?, comparisonOfBytes_bytes]
  dsimp only
  rw [minutesOfBytes?_bytes]
  rfl

/-! ## The theorem -/

/-- A value is a time of day exactly when it begins with one, behind a sign or none. The digits of
the hour are all that stand there, and nothing behind the minutes counts. The bytes of the value say
the same, and no cut is inside a character. With any other value no event is found. -/
theorem opening_read (value : String) :
    (∀ c n, ofString? value = some ⟨c, n⟩ ↔
        ∃ t : AskedTime, t.Opens c value ∧ t.minuteOfDay = n) ∧
      (ofString? value = none ↔ ∀ c (t : AskedTime), ¬ t.Opens c value) ∧
      (∀ c (t : AskedTime), t.Opens c value →
        (value.toList.drop c.sign.length).takeWhile Char.isDigit = t.hours ∧
          t.minuteOfDay =
            60 * Nat.ofDigitChars 10 t.hours 0 + Nat.ofDigitChars 10 t.minutes 0 ∧
          t.minuteOfDay ≤ 99 * 60 + 99 ∧
          ∀ other, t.Opens c other → ofString? other = ofString? value) ∧
      ofBytes? value.toUTF8.data.toList = some (ofString? value) ∧
      ∀ e : Event, Property.timeOfDay.holds value e = true ↔
        ∃ m c, ∃ t : AskedTime, e.start? = some m ∧ t.Opens c value ∧
          c.holds m.minuteOfDay t.minuteOfDay = true := by
  refine ⟨ofString?_eq_some_iff value, ofString?_eq_none_iff value, ?_, ?_,
    holds_timeOfDay_iff value⟩
  · intro c t hopens
    refine ⟨hopens.takeWhile_isDigit, t.minuteOfDay_eq, t.minuteOfDay_le, fun other hother => ?_⟩
    rw [hopens.ofString?_eq, hother.ofString?_eq]
  · rw [← bytes_toList]
    exact ofBytes?_bytes value

/-- An accent is two bytes. Behind the minutes it is nothing, and among them it is no digit. -/
theorem opening_read_accent :
    let t : AskedTime := ⟨['9'], ['0', '5'], .inl rfl, rfl, by simp⟩
    t.Opens .lessOrEqual "<=9:05é" ∧ t.Opens .lessOrEqual "<=9:05" ∧
      ofString? "<=9:05é" = some ⟨.lessOrEqual, 9 * 60 + 5⟩ ∧
      ofString? "<=9:05" = ofString? "<=9:05é" ∧ ofString? "9:0é" = none := by
  intro t
  have hopens : t.Opens .lessOrEqual "<=9:05é" := ⟨['é'], rfl⟩
  have hother : t.Opens .lessOrEqual "<=9:05" := ⟨[], rfl⟩
  obtain ⟨hread, -, hopened, -⟩ := opening_read "<=9:05é"
  exact ⟨hopens, hother, (hread _ _).mpr ⟨t, hopens, rfl⟩,
    (hopened _ t hopens).2.2.2 _ hother, by decide +kernel⟩

end TimeTarget

end CalendarRules
