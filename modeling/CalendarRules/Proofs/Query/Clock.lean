import CalendarRules.Proofs.Query.Monotone
import CalendarRules.Proofs.Time.WallClock

/-!
# Queries see wall-clock times

A query asks for the day and the time of day of an event and whether it lasts whole days. It gets
them from the times as they are written, so the offsets of an event change no answer.
-/

namespace CalendarRules

/-! ## Events with the same times -/

namespace Event

/-- The event with other texts for its times. -/
def withTimes (e : Event) (start stop : Option String) : Event :=
  { e with startTime := start, endTime := stop }

variable {e : Event} {start stop : Option String}

theorem property_withTimes (hstart : start.bind Stamp.parse? = e.start?)
    (hstop : stop.bind Stamp.parse? = e.end?) (p : Property) (value : String) :
    p.holds value (e.withTimes start stop) = p.holds value e := by
  have hs : (e.withTimes start stop).start? = e.start? := hstart
  have ht : (e.withTimes start stop).end? = e.end? := hstop
  cases p <;> simp only [Property.holds, isAllDay?, hs, ht] <;> rfl

theorem term_withTimes (hstart : start.bind Stamp.parse? = e.start?)
    (hstop : stop.bind Stamp.parse? = e.end?) (t : Term) :
    t.holds (e.withTimes start stop) = t.holds e := by
  unfold Term.holds
  cases Property.ofName? t.property with
  | none => rfl
  | some p => exact property_withTimes hstart hstop p (Text.fold t.value)

end Event

namespace Stamp

/-- The texts are the same up to the offset at the end of a wall-clock time, and the blanks around
it. -/
inductive OffsetOnly : Option String → Option String → Prop
  | refl (t : Option String) : OffsetOnly t t
  | change (w : WallClock) (suffix suffix' : Suffix) (before after before' after' : Blanks) :
    OffsetOnly (some (w.text suffix before after)) (some (w.text suffix' before' after'))

theorem parse?_text (w : WallClock) (suffix suffix' : Suffix)
    (before after before' after' : Blanks) :
    parse? (w.text suffix before after) = parse? (w.text suffix' before' after') := by
  obtain ⟨day, gap, hour, minute, seconds⟩ := w
  cases seconds with
  | omitted => rw [parse?_omitted, parse?_omitted]
  | given second places fraction => rw [parse?_given, parse?_given]

theorem bind_of_offsetOnly {t t' : Option String} (h : OffsetOnly t t') :
    t'.bind parse? = t.bind parse? := by
  cases h with
  | refl => rfl
  | change w suffix suffix' before after before' after' =>
    rw [Option.bind_some, Option.bind_some, parse?_text]

/-! ## The theorem -/

/-- A timestamp gives the wall-clock time that is written, whatever offset follows it and whatever
blanks stand around it, and a date alone gives its midnight. So no query has another answer when
the offsets of an event change or go. -/
theorem wall_clock_kept :
    (∀ (day : Day) (gap : Gap) (hour : Fin 24) (minute second : Fin 60) (places : Fin 10)
        (fraction : Fin (10 ^ places.val)) (suffix : Suffix) (before after : Blanks),
      parse? ((⟨day, gap, hour, minute, .given second places fraction⟩ : WallClock).text suffix
          before after) =
        some ⟨day.date, hour, minute, second, fraction * 10 ^ (9 - places.val)⟩) ∧
      (∀ (day : Day) (before after : Blanks),
        parse? (around before after (dateText day.date)) = some ⟨day.date, 0, 0, 0, 0⟩) ∧
      ∀ (e : Event) (start stop : Option String), OffsetOnly e.startTime start →
        OffsetOnly e.endTime stop →
          (∀ p ∈ [Property.dayOfWeek, .timeOfDay, .isAllDay], ∀ value,
            p.holds value (e.withTimes start stop) = p.holds value e) ∧
          ∀ q : Query, q.holds (e.withTimes start stop) = q.holds e := by
  refine ⟨parse?_given, parse?_date, ?_⟩
  intro e start stop hstart hstop
  have hs := bind_of_offsetOnly hstart
  have ht := bind_of_offsetOnly hstop
  refine ⟨fun p _ value => e.property_withTimes hs ht p value, ?_⟩
  intro q
  exact q.holds_congr fun t _ => Event.term_withTimes hs ht t

/-- It is still evening where the time was written, and another day elsewhere. -/
theorem wall_clock_kept_evening :
    let e : Event :=
      { startTime := some "2025-01-15T23:30:00.25-05:00", endTime := some "2025-01-16" }
    let start := some " 2025-01-15T23:30:00.25z"
    OffsetOnly e.startTime start ∧ OffsetOnly e.endTime e.endTime ∧
      ∀ q : Query, q.holds (e.withTimes start e.endTime) = q.holds e := by
  intro e start
  let w : WallClock :=
    ⟨⟨⟨2025, 1, 15⟩, by decide, by decide⟩, .letter, 23, 30, .given 0 2 ⟨25, by decide⟩⟩
  let bare : Blanks := ⟨[], by simp⟩
  let blank : Blanks := ⟨[' '], by simp [Text.isBlank]⟩
  have hfrom : w.text (.offset true 5 0) bare bare = "2025-01-15T23:30:00.25-05:00" := by cbv
  have hto : w.text (.zulu true) blank bare = " 2025-01-15T23:30:00.25z" := by cbv
  have hstart : OffsetOnly e.startTime start := by
    have h := OffsetOnly.change w (.offset true 5 0) (.zulu true) bare bare blank bare
    rwa [hfrom, hto] at h
  exact ⟨hstart, .refl _, (wall_clock_kept.2.2 e start e.endTime hstart (.refl _)).2⟩

end Stamp

end CalendarRules
