import CalendarRules.Event.Decode
import CalendarRules.Event.Row
import CalendarRules.Proofs.Query.Monotone
import CalendarRules.Proofs.Rule.Accounting

/-!
# The columns that a query reads

A property reads one or two columns of an event, and a change in any of these can change its answer.
Nothing reads the id. So a query cannot tell apart events that are the same in the columns of its
terms, and a rule book cannot tell apart events that are the same in the columns of its queries.
-/

namespace CalendarRules

open Json Text

/-! ## Events that are the same in a column -/

/-- Both events hold the same in the column. -/
def Event.SameIn (e e' : Event) : Column → Prop
  | .id => e.id = e'.id
  | .title => e.title = e'.title
  | .description => e.description = e'.description
  | .attendees => e.attendees = e'.attendees
  | .isRecurring => e.isRecurring = e'.isRecurring
  | .responseStatus => e.responseStatus = e'.responseStatus
  | .transparency => e.transparency = e'.transparency
  | .visibility => e.visibility = e'.visibility
  | .color => e.color = e'.color
  | .recurrenceId => e.recurrenceId = e'.recurrenceId
  | .startTime => e.startTime = e'.startTime
  | .endTime => e.endTime = e'.endTime

theorem Event.sameIn_set (e : Event) {c d : Column} (v : Value) (h : d ≠ c) :
    (e.set c v).SameIn e d := by
  cases c <;> cases d <;> first | rfl | exact absurd rfl h

theorem Row.sameIn_read {row row' : Row} {c : Column} (h : row.get? c = row'.get? c) :
    row.read.SameIn row'.read c := by
  cases c <;> simp only [Event.SameIn, read, text, label, h]

variable {e e' : Event}

/-! ## What a property reads -/

namespace Property

def columns : Property → List Column
  | title => [.title]
  | description => [.description]
  | attendees | domain | email | hasAttendees => [.attendees]
  | response => [.responseStatus]
  | recurring => [.isRecurring]
  | isAllDay => [.startTime, .endTime]
  | transparency => [.transparency]
  | visibility => [.visibility]
  | dayOfWeek | timeOfDay => [.startTime]
  | color => [.color]
  | recurrenceId => [.recurrenceId]

theorem id_notMem_columns (p : Property) : .id ∉ p.columns := by
  cases p <;> decide

theorem holds_congr {p : Property} (h : ∀ c ∈ p.columns, e.SameIn e' c) (value : String) :
    p.holds value e = p.holds value e' := by
  cases p <;>
    simp only [columns, Event.SameIn, List.forall_mem_cons] at h <;>
    simp only [holds, Event.domains, Event.isAllDay?, Event.start?, Event.end?, h]

theorem exists_set_ne (p : Property) :
    ∀ c ∈ p.columns, ∃ value e v, p.holds (fold value) (e.set c v) ≠ p.holds (fold value) e := by
  have hone {c : Column} (hp : p.columns = [c]) (value : String) (v : Value)
      (h : p.holds (fold value) (({} : Event).set c v) ≠ p.holds (fold value) {}) :
      ∀ c ∈ p.columns, ∃ value e v, p.holds (fold value) (e.set c v) ≠ p.holds (fold value) e := by
    rw [hp]
    exact List.forall_mem_singleton.mpr ⟨value, {}, v, h⟩
  cases p with
  | title => exact hone rfl "sync" (.text "Sync") (by decide +kernel)
  | description => exact hone rfl "sync" (.text "Sync") (by decide +kernel)
  | attendees => exact hone rfl "ann" (.ofTexts ["ann@acme.com"]) (by decide +kernel)
  | domain => exact hone rfl "acme.com" (.ofTexts ["ann@acme.com"]) (by decide +kernel)
  | email => exact hone rfl "ann@acme.com" (.ofTexts ["ann@acme.com"]) (by decide +kernel)
  | response => exact hone rfl "declined" (.text "declined") (by decide +kernel)
  | recurring => exact hone rfl "yes" (.bool true) (by decide +kernel)
  | isAllDay =>
    -- Whether the event lasts all day is unknown until both of its ends are there.
    refine List.forall_mem_cons.mpr ⟨?_, List.forall_mem_singleton.mpr ?_⟩
    · exact ⟨"yes", { endTime := some "2025-01-16" }, .text "2025-01-15", by decide +kernel⟩
    · exact ⟨"yes", { startTime := some "2025-01-15" }, .text "2025-01-16", by decide +kernel⟩
  | hasAttendees => exact hone rfl "yes" (.ofTexts ["ann@acme.com"]) (by decide +kernel)
  | transparency => exact hone rfl "free" (.text "transparent") (by decide +kernel)
  | visibility => exact hone rfl "private" (.text "private") (by decide +kernel)
  | dayOfWeek => exact hone rfl "wed" (.text "2025-01-15") (by decide +kernel)
  | timeOfDay => exact hone rfl "<9:00" (.text "2025-01-15") (by decide +kernel)
  | color => exact hone rfl "5" (.text "5") (by decide +kernel)
  | recurrenceId => exact hone rfl "r" (.text "r") (by decide +kernel)

theorem mem_columns_iff (p : Property) (c : Column) :
    c ∈ p.columns ↔ ∃ value e e', (∀ d, d ≠ c → e.SameIn e' d) ∧
      p.holds (fold value) e ≠ p.holds (fold value) e' := by
  constructor
  · intro hc
    obtain ⟨value, e, v, hne⟩ := p.exists_set_ne c hc
    exact ⟨value, e.set c v, e, fun d hd => e.sameIn_set v hd, hne⟩
  · rintro ⟨value, e, e', hsame, hne⟩
    refine Decidable.byContradiction fun hc => hne (holds_congr (fun d hd => hsame d ?_) _)
    rintro rfl
    exact hc hd

end Property

/-! ## What a query reads -/

/-- An unknown property reads nothing. -/
def Term.columns (t : Term) : List Column :=
  ((Property.ofName? t.property).map Property.columns).getD []

theorem Term.holds_congr {t : Term} (h : ∀ c ∈ t.columns, e.SameIn e' c) :
    t.holds e = t.holds e' := by
  unfold holds
  unfold columns at h
  cases hp : Property.ofName? t.property with
  | none => rfl
  | some p =>
    rw [hp] at h
    exact Property.holds_congr h _

namespace Query

def columns (q : Query) : List Column := q.terms.flatMap Term.columns

theorem holds_of_sameIn {q : Query} (h : ∀ c ∈ q.columns, e.SameIn e' c) :
    q.holds e = q.holds e' :=
  q.holds_congr fun _ ht => Term.holds_congr fun c hc => h c (List.mem_flatMap.mpr ⟨_, ht, hc⟩)

theorem id_notMem_columns (q : Query) : .id ∉ q.columns := by
  intro h
  obtain ⟨t, -, ht⟩ := List.mem_flatMap.mp h
  unfold Term.columns at ht
  cases hp : Property.ofName? t.property with
  | none => simp [hp] at ht
  | some p => exact p.id_notMem_columns (by simpa [hp] using ht)

end Query

/-! ## What a rule book reads -/

/-- A query of the book reads the column: that of an enabled rule or that of a fingerprint. -/
inductive RuleBook.Reads (b : RuleBook) (c : Column) : Prop
  | rule {r : Rule} {q : Query} (hr : r ∈ b.rules) (henabled : r.enabled = true)
    (hq : Query.parse r.query = .ok q) (hc : c ∈ q.columns)
  | fingerprint {f : Fingerprint} {q : Query} (hf : f ∈ b.fingerprints)
    (hq : f.toQuery? = some q) (hc : c ∈ q.columns)

theorem Classifier.classify_congr {k : Classifier}
    (h : ∀ r ∈ k.rules, r.query.holds e = r.query.holds e') : k.classify e = k.classify e' := by
  unfold classify
  congr 1
  generalize k.rules = rules at h
  induction rules with
  | nil => rfl
  | cons r rules ih =>
    obtain ⟨hr, hrules⟩ := List.forall_mem_cons.mp h
    rw [List.find?_cons, List.find?_cons, hr, ih hrules]

theorem RuleBook.reads_of_mem_rules {b : RuleBook} {r : CompiledRule}
    (hr : r ∈ (Classifier.ofBook b).rules) {c : Column} (hc : c ∈ r.query.columns) :
    b.Reads c := by
  rcases List.mem_append.mp hr with hr | hr
  · obtain ⟨rule, hrule, hcompiled⟩ := List.mem_filterMap.mp hr
    rw [ordered, List.mem_mergeSort, List.mem_filter] at hrule
    exact .rule hrule.1 hrule.2 (Rule.compiled?_eq_some hcompiled).1 hc
  · obtain ⟨f, hf, hcompiled⟩ := List.mem_filterMap.mp hr
    obtain ⟨q, hq, rfl⟩ := Option.map_eq_some_iff.mp hcompiled
    exact .fingerprint hf hq hc

theorem RuleBook.classify_of_sameIn {b : RuleBook} (h : ∀ c, b.Reads c → e.SameIn e' c) :
    (Classifier.ofBook b).classify e = (Classifier.ofBook b).classify e' :=
  Classifier.classify_congr fun _ hr =>
    Query.holds_of_sameIn fun c hc => h c (RuleBook.reads_of_mem_rules hr hc)

/-- A query depends on the columns of its terms and a rule book on those of its queries, for events
and for rows. These are the columns that its properties compare with, each of them, and never the
id. -/
theorem Query.reads_own_columns :
    (∀ (q : Query) (e e' : Event), (∀ c ∈ q.columns, e.SameIn e' c) → q.holds e = q.holds e') ∧
      (∀ (q : Query) (row row' : Row), (∀ c ∈ q.columns, row.get? c = row'.get? c) →
        q.holds row.read = q.holds row'.read) ∧
      (∀ (b : RuleBook) (e e' : Event), (∀ c, b.Reads c → e.SameIn e' c) →
        (Classifier.ofBook b).classify e = (Classifier.ofBook b).classify e') ∧
      (∀ (b : RuleBook) (row row' : Row), (∀ c, b.Reads c → row.get? c = row'.get? c) →
        (Classifier.ofBook b).classify row.read = (Classifier.ofBook b).classify row'.read) ∧
      (∀ (q : Query) (e : Event) (id : Option String), q.holds { e with id := id } = q.holds e) ∧
      ∀ (p : Property) (c : Column), c ∈ p.columns ↔
        ∃ value e e', (∀ d, d ≠ c → e.SameIn e' d) ∧
          p.holds (fold value) e ≠ p.holds (fold value) e' := by
  refine ⟨fun q e e' h => holds_of_sameIn h, ?_, fun b e e' h => b.classify_of_sameIn h, ?_, ?_,
    Property.mem_columns_iff⟩
  · exact fun q row row' h => holds_of_sameIn fun c hc => Row.sameIn_read (h c hc)
  · exact fun b row row' h => b.classify_of_sameIn fun c hc => Row.sameIn_read (h c hc)
  · intro q e id
    refine holds_of_sameIn fun c hc => ?_
    cases c with
    | id => exact absurd hc q.id_notMem_columns
    | _ => rfl

/-- Neither the title nor the end counts for a question about the start, and a rule that is off asks
for nothing. -/
theorem Query.reads_own_columns_start :
    let q : Query := ⟨[.term ⟨"time-of-day", "<12:00"⟩, .anyOf [.term ⟨"day-of-week", "wed"⟩]]⟩
    let e : Event := { title := some "Sync", startTime := some "2025-01-15 09:30:00" }
    let e' : Event := { id := some "7", startTime := some "2025-01-15 09:30:00" }
    let row : Row := ⟨[("start_time", .text "2025-01-15 09:30:00"), ("end_time", .null)]⟩
    let row' : Row := ⟨[("id", .ofNat 7), ("start_time", .text "2025-01-15 09:30:00")]⟩
    let b : RuleBook := ⟨[⟨"r", none, "day-of-week:wed", .didNotAttend, 0, 0, true⟩,
      ⟨"s", none, "title:sync", .project "p", 1, 0, false⟩], []⟩
    (∀ c ∈ q.columns, e.SameIn e' c) ∧ q.holds e = q.holds e' ∧
      (∀ c ∈ q.columns, row.get? c = row'.get? c) ∧ q.holds row.read = q.holds row'.read ∧
      (∀ c, b.Reads c → e.SameIn e' c) ∧
      (Classifier.ofBook b).classify e = (Classifier.ofBook b).classify e' ∧
      (∀ c, b.Reads c → row.get? c = row'.get? c) ∧
      (Classifier.ofBook b).classify row.read = (Classifier.ofBook b).classify row'.read := by
  intro q e e' row row' b
  let wednesdays : Query := ⟨[.term ⟨"day-of-week", "wed"⟩]⟩
  have hq : ∀ c ∈ q.columns, c = .startTime := by decide +kernel
  have hwednesdays : ∀ c ∈ wednesdays.columns, c = .startTime := by decide +kernel
  have hb : ∀ c, b.Reads c → c = .startTime := by
    rintro c (⟨hr, henabled, hparse, hc⟩ | ⟨hf, -, -⟩)
    · simp only [b, List.mem_cons, List.not_mem_nil, or_false] at hr
      rcases hr with rfl | rfl
      · have hwed : Query.parse "day-of-week:wed" = .ok wednesdays := by cbv
        cases hwed.symm.trans hparse
        exact hwednesdays c hc
      · cases henabled
    · cases hf
  obtain ⟨hevents, hrows, hbook, hbookRows, -, -⟩ := reads_own_columns
  have hsame : e.SameIn e' .startTime := rfl
  have hsameRow : row.get? .startTime = row'.get? .startTime := rfl
  have hqe : ∀ c ∈ q.columns, e.SameIn e' c := fun c hc => hq c hc ▸ hsame
  have hqr : ∀ c ∈ q.columns, row.get? c = row'.get? c := fun c hc => hq c hc ▸ hsameRow
  have hbe : ∀ c, b.Reads c → e.SameIn e' c := fun c hc => hb c hc ▸ hsame
  have hbr : ∀ c, b.Reads c → row.get? c = row'.get? c := fun c hc => hb c hc ▸ hsameRow
  exact ⟨hqe, hevents q e e' hqe, hqr, hrows q row row' hqr, hbe, hbook b e e' hbe, hbr,
    hbookRows b row row' hbr⟩

end CalendarRules
