import CalendarRules.Proofs.Text.Style
import CalendarRules.Proofs.Text.Trim
import CalendarRules.Proofs.View.Report
import CalendarRules.Proofs.View.Tree
import CalendarRules.View.Preview

/-!
# Colours in tables

A table in colour is the plain table with codes in it. Rows of a report make one exception: blanks
at the end of a row are trimmed off, but a code that stands after them keeps them from that.
-/

namespace CalendarRules

open Text

/-! ## Parts of a table -/

theorem Moment.noEscape_shown (m : Moment) : NoEscape m.shown := by
  have hday (n : Nat) : NoEscape (dayName n) := by
    unfold dayName
    split <;> decide
  have hmonth (n : Nat) : NoEscape (monthName n) := by
    unfold monthName
    split <;> decide
  have hdigits (n : Nat) : NoEscape (twoDigits n) := by
    unfold twoDigits
    split
    · exact NoEscape.append_iff.mpr ⟨by decide, .toString n⟩
    · exact .toString n
  have hspace : NoEscape " " := by decide
  have hcolon : NoEscape ":" := by decide
  simp only [shown, NoEscape.append_iff, hday, hmonth, hdigits, hspace, hcolon, and_self]

theorem Stamp.noEscape_shown {raw : String} (h : NoEscape raw) : NoEscape (shown raw) := by
  unfold shown
  split
  · exact Moment.noEscape_shown _
  · exact h

namespace Event

/-- Nothing that is shown of the event has an escape character. -/
structure NoEscapes (e : Event) : Prop where
  id : ∀ s ∈ e.id, NoEscape s
  title : ∀ s ∈ e.title, NoEscape s
  startTime : ∀ s ∈ e.startTime, NoEscape s

variable {e : Event}

theorem noEscape_shownId (h : e.NoEscapes) : NoEscape e.shownId :=
  (NoEscape.getD h.id).cutWith (by decide) 8

theorem noEscape_shownStart (h : e.NoEscapes) : NoEscape e.shownStart := by
  refine NoEscape.getD fun s hs => ?_
  obtain ⟨raw, hraw, rfl⟩ := Option.map_eq_some_iff.mp hs
  exact Stamp.noEscape_shown (h.startTime raw hraw)

theorem noEscape_shownTitle (h : e.NoEscapes) : NoEscape e.shownTitle := by
  unfold shownTitle
  split
  · rename_i title htitle
    split
    · decide
    · exact h.title title htitle
  · decide

end Event

theorem noEscape_line {s : String} (h : NoEscape s) : NoEscape (line s) :=
  NoEscape.append_iff.mpr ⟨h, by decide⟩

theorem colourOnly_line {s t : String} (h : ColourOnly s t) : ColourOnly (line s) (line t) :=
  h.append (.of_noEscape (by decide))

theorem colourOnly_headerLine {header : String} (h : NoEscape header) :
    ColourOnly (headerLine true header) (headerLine false header) :=
  colourOnly_line (.paint .dim (.of_noEscape h))

/-! ## Previews -/

namespace Preview

theorem noEscape_tableRow {id start title : String} (hid : NoEscape id) (hstart : NoEscape start)
    (htitle : NoEscape title) : NoEscape (tableRow id start title) := by
  have hspace : NoEscape " " := by decide
  simp only [tableRow, NoEscape.append_iff, hid.padRight, hstart.padRight, htitle, hspace, and_self]

theorem noEscape_eventLine {e : Event} (h : e.NoEscapes) : NoEscape (eventLine e) := by
  have htitle : NoEscape (cut 60 e.shownTitle) :=
    (Event.noEscape_shownTitle h).cutWith (by decide) 60
  exact noEscape_line
    (noEscape_tableRow (Event.noEscape_shownId h) (Event.noEscape_shownStart h) htitle)

theorem noEscape_summaryLine (p : Preview) : NoEscape p.summaryLine := by
  unfold summaryLine
  split
  · refine noEscape_line ?_
    simp only [NoEscape.append_iff, NoEscape.toString, and_true]
    decide
  · refine noEscape_line ?_
    simp only [NoEscape.append_iff, NoEscape.toString, true_and]
    split <;> decide

theorem colourOnly_table {p : Preview} (h : ∀ e ∈ p.shown, e.NoEscapes) :
    ColourOnly (p.table true) (p.table false) := by
  unfold table
  split
  · exact .of_noEscape (by decide)
  · have hheader : NoEscape (tableRow "ID" "Start" "Title") :=
      noEscape_tableRow (by decide) (by decide) (by decide)
    have hlines : ColourOnly (String.join (p.shown.map eventLine))
        (String.join (p.shown.map eventLine)) :=
      .join fun e he => .of_noEscape (noEscape_eventLine (h e he))
    exact ((colourOnly_headerLine hheader).append hlines).append
      (.of_noEscape p.noEscape_summaryLine)

end Preview

/-! ## Queries -/

namespace Term

/-- Neither the property nor the value has an escape character. -/
def NoEscapes (t : Term) : Prop := NoEscape t.property ∧ NoEscape t.value

theorem noEscape_renderValue {value : String} (h : NoEscape value) :
    '\x1b' ∉ renderValue value.toList := by
  unfold renderValue
  split
  · intro hc
    simp only [List.mem_append, List.mem_cons, List.mem_flatMap, List.not_mem_nil, or_false] at hc
    rcases hc with (hc | ⟨d, hd, hc⟩) | hc
    · cases hc
    · unfold escape at hc
      split at hc
      · rcases List.mem_cons.mp hc with hc | hc
        · cases hc
        · exact h (List.mem_singleton.mp hc ▸ hd)
      · exact h (List.mem_singleton.mp hc ▸ hd)
    · cases hc
  · exact h

theorem noEscape_render {t : Term} (h : t.NoEscapes) : '\x1b' ∉ t.render := by
  rw [render, List.mem_append, List.mem_cons]
  rintro (hc | hc | hc)
  · exact h.1 hc
  · cases hc
  · exact noEscape_renderValue h.2 hc

theorem colourOnly_treeLine {t : Term} (h : t.NoEscapes) (depth : Nat) :
    ColourOnly (t.treeLine true depth) (t.treeLine false depth) := by
  have hindent : ColourOnly (indent depth) (indent depth) := .of_noEscape (.spaces _)
  have hproperty := (ColourOnly.of_noEscape h.1).paint t.style
  have hrest : NoEscape (" = " ++ (quoted t.value ++ (" (" ++ (t.kindName ++ ")")))) := by
    have hkind : NoEscape t.kindName := .of_noControl t.noControl_kindName
    have hquoted : NoEscape (quoted t.value) := .of_noControl (noControl_quoted _)
    simp only [NoEscape.append_iff, hkind, hquoted, true_and]
    decide
  simp only [treeLine_eq, String.append_assoc]
  exact colourOnly_line (hindent.append (hproperty.append (.of_noEscape hrest)))

end Term

namespace Node

mutual

theorem noEscape_render : (n : Node) → (∀ t ∈ n.terms, t.NoEscapes) → '\x1b' ∉ n.render
  | .term t, h => Term.noEscape_render (h t List.mem_cons_self)
  | .anyOf ms, h => by
    rw [render, List.mem_append, List.mem_cons, List.mem_singleton]
    rintro ((hc | hc) | hc)
    · cases hc
    · exact noEscape_renderMembers ms h hc
    · cases hc

theorem noEscape_renderMembers : (ms : List Node) → (∀ t ∈ membersTerms ms, t.NoEscapes) →
    '\x1b' ∉ renderMembers ms
  | [], _ => by simp [renderMembers]
  | [m], h => noEscape_render m fun t ht => h t (List.mem_append_left _ ht)
  | m :: n :: ns, h => by
    rw [renderMembers, List.mem_append, List.mem_append]
    · rintro ((hc | hc) | hc)
      · exact noEscape_render m (fun t ht => h t (List.mem_append_left _ ht)) hc
      · exact absurd hc (by decide)
      · exact noEscape_renderMembers (n :: ns) (fun t ht => h t (List.mem_append_right _ ht)) hc
    · exact List.cons_ne_nil _ _

end

mutual

theorem colourOnly_tree (depth : Nat) : (n : Node) → (∀ t ∈ n.terms, t.NoEscapes) →
    ColourOnly (n.tree true depth) (n.tree false depth)
  | .term t, h => Term.colourOnly_treeLine (h t List.mem_cons_self) depth
  | .anyOf ms, h => by
    have hentry : NoEscape (Node.anyOf ms).entry := by
      cases ms <;> rw [entry] <;> decide
    have hline : NoEscape (indent depth ++ (Node.anyOf ms).entry) :=
      NoEscape.append_iff.mpr ⟨.spaces _, hentry⟩
    rw [tree_anyOf, tree_anyOf]
    exact (colourOnly_line (.of_noEscape hline)).append (colourOnly_treeMembers (depth + 1) ms h)

theorem colourOnly_treeMembers (depth : Nat) : (ms : List Node) →
    (∀ t ∈ membersTerms ms, t.NoEscapes) →
    ColourOnly (treeMembers true depth ms) (treeMembers false depth ms)
  | [], _ => fun _ => rfl
  | m :: ms, h =>
    (colourOnly_tree depth m fun t ht => h t (List.mem_append_left _ ht)).append
      (colourOnly_treeMembers depth ms fun t ht => h t (List.mem_append_right _ ht))

end

end Node

namespace Query

theorem noEscape_renderItems {ns : List Node} (h : ∀ t ∈ Node.membersTerms ns, t.NoEscapes) :
    '\x1b' ∉ renderItems ns := by
  induction ns with
  | nil => simp [renderItems]
  | cons n ns ih =>
    have hn := n.noEscape_render fun t ht => h t (List.mem_append_left _ ht)
    cases ns with
    | nil => exact hn
    | cons m ms =>
      rw [renderItems, List.mem_append, List.mem_cons]
      · rintro (hc | hc | hc)
        · exact hn hc
        · cases hc
        · exact ih (fun t ht => h t (List.mem_append_right _ ht)) hc
      · exact List.cons_ne_nil _ _

theorem noEscape_toText {q : Query} (h : ∀ t ∈ q.terms, t.NoEscapes) : NoEscape q.toText := by
  rw [NoEscape, toText, String.toList_ofList]
  exact noEscape_renderItems h

theorem noEscape_message {w : Warning} (h : NoEscape w.property) : NoEscape w.message := by
  have hname (p : Property) : NoEscape p.name := by cases p <;> decide
  unfold Warning.message
  split <;> simp only [NoEscape.append_iff, h, hname, and_true] <;> decide

theorem colourOnly_warningLines {q : Query} (h : ∀ t ∈ q.terms, t.NoEscapes) :
    ColourOnly (q.warningLines true) (q.warningLines false) := by
  unfold warningLines
  split
  · exact fun _ => rfl
  · have hfirst : ColourOnly (line "") (line "") := .of_noEscape (by decide)
    refine hfirst.append (.join fun w hw => colourOnly_line ?_)
    obtain ⟨t, ht, rfl⟩ := List.mem_map.mp hw
    have hword : NoEscape "warning:" := by decide
    have hmessage : NoEscape (" " ++ Warning.message ⟨t.property, Property.suggest? t.property⟩) :=
      NoEscape.append_iff.mpr ⟨by decide, noEscape_message (h t (List.mem_filter.mp ht).1).1⟩
    rw [String.append_assoc, String.append_assoc]
    exact ((ColourOnly.of_noEscape hword).paint .yellow).append (.of_noEscape hmessage)

theorem colourOnly_tree {q : Query} (h : ∀ t ∈ q.terms, t.NoEscapes) :
    ColourOnly (q.tree true) (q.tree false) := by
  unfold tree
  split
  · exact .of_noEscape (by decide)
  · have hmark : NoEscape "✓" := by decide
    have hspace : NoEscape " " := by decide
    have hheading := (((ColourOnly.of_noEscape hmark).paint .green).append
      (.of_noEscape hspace)).append ((ColourOnly.of_noEscape (noEscape_toText h)).paint .bold)
    have hempty : ColourOnly (line "") (line "") := .of_noEscape (by decide)
    have hall : ColourOnly (line "All of:") (line "All of:") := .of_noEscape (by decide)
    exact ((((colourOnly_line hheading).append hempty).append hall).append
      (Node.colourOnly_treeMembers 1 q.items h)).append (colourOnly_warningLines h)

end Query

/-! ## Reports -/

namespace Query

theorem colourOnly_message {error : Error}
    (h : ∀ property place, error = .expectedColon property place → NoEscape property) :
    ColourOnly error.message error.message := by
  unfold Fault.message
  cases error with
  | expectedProperty found place =>
    have hstart : NoEscape ("expected property name at position " ++ toString place ++
        ", found '") := by
      simp only [NoEscape.append_iff, NoEscape.toString, and_true]
      decide
    dsimp only
    rw [String.append_assoc]
    exact (ColourOnly.of_noEscape hstart).append (.ofChar found)
  | expectedColon property place =>
    have hproperty := h property place rfl
    refine .of_noEscape ?_
    simp only [NoEscape.append_iff, hproperty, and_true]
    decide
  | expectedValue place | unclosedQuote place | unclosedParenthesis place
  | unexpectedCloseParen place =>
    refine .of_noEscape ?_
    simp only [NoEscape.append_iff, NoEscape.toString, and_true]
    decide

end Query

/-- Neither the rule nor the reason has a text with an escape character. -/
structure SkippedRule.NoEscapes (s : SkippedRule) : Prop where
  ruleId : NoEscape s.ruleId
  reason : ∀ property place, s.reason = .invalidQuery (.expectedColon property place) →
    NoEscape property

theorem SkippedRule.colourOnly_message {s : SkippedRule} (h : s.NoEscapes) :
    ColourOnly s.reason.message s.reason.message := by
  cases hreason : s.reason with
  | invalidQuery error =>
    have hword : NoEscape "invalid query: " := by decide
    have hmessage : ColourOnly error.message error.message :=
      Query.colourOnly_message fun property place he =>
        h.reason property place (by rw [hreason, he])
    exact (ColourOnly.of_noEscape hword).append hmessage
  | emptyQuery => exact .of_noEscape (by decide)

structure Outcome.NoEscapes (o : Outcome) : Prop where
  eventId : ∀ s ∈ o.eventId, NoEscape s
  project : ∀ m ∈ o.result, ∀ id, m.target = .project id → NoEscape id

/-- A project under which the event is booked ends in a character that is no blank. -/
def Outcome.EndsInText (o : Outcome) : Prop :=
  ∀ m ∈ o.result, ∀ id, m.target = .project id → Text.EndsInText id.toList

namespace ReportView

structure NoEscapes (v : ReportView) : Prop where
  events : ∀ e ∈ v.events, e.NoEscapes
  outcomes : ∀ o ∈ v.report.outcomes, o.NoEscapes
  skipped : ∀ s ∈ v.skipped, s.NoEscapes

/-- The first cells of a row. They have no colours. -/
def rowStart (v : ReportView) (o : Outcome) : String :=
  padRight 8 (cutId (o.eventId.getD "")) ++ " " ++
    padRight 16 (((v.event? o).map (·.shownStart)).getD "") ++ " " ++
    padRight 40 (cut 40 (((v.event? o).map (·.shownTitle)).getD "")) ++ " "

/-- The row of an outcome before the blanks at its end are trimmed off. -/
def outcomeRow (colours : Bool) (v : ReportView) (o : Outcome) : String :=
  v.rowStart o ++ viaCell colours o.result ++ " " ++ targetCell colours o.result

theorem outcomeLine_eq (colours : Bool) (v : ReportView) (o : Outcome) :
    v.outcomeLine colours o = line (trimEnd (v.outcomeRow colours o)) := rfl

variable {v : ReportView} {o : Outcome}

/-! ### Cells -/

theorem colourOnly_viaCell (m? : Option Match) :
    ColourOnly (viaCell true m?) (viaCell false m?) := by
  cases m? with
  | none => exact .of_noEscape (NoEscape.padRight (by decide) _)
  | some m =>
    have hname : NoEscape m.origin.shortName := by cases m.origin <;> decide
    exact ((ColourOnly.of_noEscape hname).paint .dim).append (.of_noEscape (.spaces _))

theorem colourOnly_targetCell (h : o.NoEscapes) :
    ColourOnly (targetCell true o.result) (targetCell false o.result) := by
  cases hresult : o.result with
  | none => exact .of_noEscape (by decide)
  | some m =>
    rw [targetCell, targetCell]
    cases htarget : m.target with
    | project id =>
      exact (ColourOnly.of_noEscape (h.project m hresult id htarget)).paint .green
    | didNotAttend =>
      have htext : NoEscape "did not attend" := by decide
      exact (ColourOnly.of_noEscape htext).paint .yellow

theorem endsInText_targetCell_true (m? : Option Match) :
    EndsInText (targetCell true m?).toList := by
  have hpaint (style : Style) (s : String) : EndsInText (style.paint true s).toList := by
    have hlast : (style.paint true s).toList =
        (Style.sequence style.start ++ s ++ "\x1b[" ++ style.stop).toList ++ ['m'] := by
      simp [Style.paint, Style.sequence]
    rw [hlast, endsInText_concat]
    decide
  cases m? with
  | none => exact ⟨'-', rfl, by decide⟩
  | some m =>
    rw [targetCell]
    cases m.target <;> exact hpaint _ _

theorem endsInText_targetCell_false_iff :
    EndsInText (targetCell false o.result).toList ↔ o.EndsInText := by
  have hdash : EndsInText "-".toList := ⟨'-', rfl, by decide⟩
  have hwords : EndsInText "did not attend".toList := ⟨'d', by decide, by decide⟩
  unfold Outcome.EndsInText
  cases o.result with
  | none => simpa [targetCell] using hdash
  | some m =>
    rw [targetCell]
    cases htarget : m.target with
    | project id => simp [Target.label, Style.paint, htarget]
    | didNotAttend => simpa [Target.label, Style.paint, htarget] using hwords

/-! ### Rows -/

theorem noEscape_rowStart (hv : v.NoEscapes) (ho : o.NoEscapes) : NoEscape (v.rowStart o) := by
  have hid : NoEscape (cutId (o.eventId.getD "")) :=
    (NoEscape.getD ho.eventId).cutWith (by decide) 8
  have hstart : NoEscape (((v.event? o).map (·.shownStart)).getD "") := by
    cases hevent : v.event? o with
    | none => exact (by decide : NoEscape "")
    | some e => exact Event.noEscape_shownStart (hv.events e (List.mem_of_getElem? hevent))
  have htitle : NoEscape (cut 40 (((v.event? o).map (·.shownTitle)).getD "")) := by
    cases hevent : v.event? o with
    | none => exact (by decide : NoEscape (cut 40 ""))
    | some e =>
      have he := hv.events e (List.mem_of_getElem? hevent)
      exact (Event.noEscape_shownTitle he).cutWith (by decide) 40
  have hspace : NoEscape " " := by decide
  simp only [rowStart, NoEscape.append_iff, hid.padRight, hstart.padRight, htitle.padRight, hspace,
    and_self]

theorem colourOnly_outcomeRow (hv : v.NoEscapes) (ho : o.NoEscapes) :
    ColourOnly (v.outcomeRow true o) (v.outcomeRow false o) := by
  have hstart := ColourOnly.of_noEscape (noEscape_rowStart hv ho)
  have hspace : ColourOnly " " " " := .of_noEscape (by decide)
  exact ((hstart.append (colourOnly_viaCell o.result)).append hspace).append
    (colourOnly_targetCell ho)

theorem trimEnd_outcomeRow_iff (colours : Bool) :
    trimEnd (v.outcomeRow colours o) = v.outcomeRow colours o ↔
      EndsInText (targetCell colours o.result).toList := by
  have hrow : (v.outcomeRow colours o).toList =
      (v.rowStart o ++ viaCell colours o.result).toList ++
        ' ' :: (targetCell colours o.result).toList := by
    simp [outcomeRow]
  rw [← trimEndChars_space_eq_self_iff, ← hrow, trimEnd, ← String.toList_inj, String.toList_ofList]

theorem outcomeLine_true (v : ReportView) (o : Outcome) :
    v.outcomeLine true o = line (v.outcomeRow true o) := by
  rw [outcomeLine_eq, (trimEnd_outcomeRow_iff true).mpr (endsInText_targetCell_true o.result)]

/-! ### Tables -/

theorem colourOnly_skippedLines (hv : v.NoEscapes) :
    ColourOnly (v.skippedLines true) (v.skippedLines false) := by
  unfold skippedLines
  split
  · exact fun _ => rfl
  · have hempty : ColourOnly (line "") (line "") := .of_noEscape (by decide)
    refine ColourOnly.append (.join fun s hs => colourOnly_line (.paint .yellow ?_)) hempty
    have hskipped := hv.skipped s hs
    have hstart : NoEscape ("skipped rule " ++ s.ruleId ++ ": ") := by
      simp only [NoEscape.append_iff, hskipped.ruleId, and_true]
      decide
    exact (ColourOnly.of_noEscape hstart).append (SkippedRule.colourOnly_message hskipped)

theorem noEscape_tallyLine (t : Tally) : NoEscape (tallyLine t) := by
  refine noEscape_line ?_
  simp only [NoEscape.append_iff, NoEscape.toString, true_and]
  decide

/-- The lines for the outcomes with all blanks at their ends. -/
def untrimmedLines (v : ReportView) : String :=
  if v.visible.isEmpty then line "No events to show."
  else
    headerLine false (tableRow "ID" "Start" "Title" (padRight viaWidth "Via") "Target") ++
      String.join (v.visible.map fun o => line (v.outcomeRow false o))

def untrimmedTable (v : ReportView) : String :=
  v.skippedLines false ++ v.untrimmedLines ++ line "" ++ tallyLine v.report.tally

theorem colourOnly_outcomeLines (hv : v.NoEscapes) :
    ColourOnly (v.outcomeLines true) v.untrimmedLines := by
  unfold outcomeLines untrimmedLines
  split
  · exact .of_noEscape (by decide)
  · have hheader : NoEscape (tableRow "ID" "Start" "Title" (padRight viaWidth "Via") "Target") := by
      decide
    refine (colourOnly_headerLine hheader).append (.join fun o ho => ?_)
    rw [outcomeLine_true]
    exact colourOnly_line (colourOnly_outcomeRow hv (hv.outcomes o (List.mem_of_mem_filter ho)))

theorem colourOnly_table (hv : v.NoEscapes) : ColourOnly (v.table true) v.untrimmedTable := by
  have hempty : ColourOnly (line "") (line "") := .of_noEscape (by decide)
  exact (((colourOnly_skippedLines hv).append (colourOnly_outcomeLines hv)).append hempty).append
    (.of_noEscape (noEscape_tallyLine _))

theorem untrimmedTable_eq_iff (v : ReportView) :
    v.untrimmedTable = v.table false ↔ ∀ o ∈ v.visible, o.EndsInText := by
  have hrow (o : Outcome) :
      line (v.outcomeRow false o) = v.outcomeLine false o ↔ o.EndsInText := by
    rw [outcomeLine_eq, line, line, String.append_left_inj, eq_comm, trimEnd_outcomeRow_iff,
      endsInText_targetCell_false_iff]
  unfold untrimmedTable table
  rw [String.append_left_inj, String.append_left_inj, String.append_right_inj]
  unfold untrimmedLines outcomeLines
  split
  case isTrue h => simp [List.isEmpty_iff.mp h]
  case isFalse h =>
    rw [String.append_right_inj]
    constructor
    · intro h o ho
      -- Trimming makes no line longer, so the tables are the same only if all their lines are.
      refine (hrow o).mp (Eq.symm (eq_of_join_eq (fun o _ => ?_) h.symm o ho))
      simp only [outcomeLine_eq, line, String.length_append]
      exact Nat.add_le_add_right (length_trimEnd_le _) _
    · intro h
      rw [List.map_congr_left fun o ho => (hrow o).mpr (h o ho)]

end ReportView

/-- Without its codes a coloured preview is the plain preview, and so is the tree of a query. The
rows of a report also keep the blanks at their ends, which the plain rows do not have, so that the
tables are the same exactly when no project that is shown is empty or ends in a blank. -/
theorem colours_add_codes {p : Preview} {q : Query} {v : ReportView}
    (hp : ∀ e ∈ p.shown, e.NoEscapes) (hq : ∀ t ∈ q.terms, t.NoEscapes) (hv : v.NoEscapes) :
    withoutColours (p.table true) = p.table false ∧
      withoutColours (q.tree true) = q.tree false ∧
      (withoutColours (v.table true) = v.table false ↔ ∀ o ∈ v.visible, o.EndsInText) ∧
      ∀ o ∈ v.report.outcomes, ∃ row, withoutColours (v.outcomeLine true o) = line row ∧
        v.outcomeLine false o = line (trimEnd row) := by
  refine ⟨(Preview.colourOnly_table hp).withoutColours_eq,
    (Query.colourOnly_tree hq).withoutColours_eq, ?_, fun o ho => ?_⟩
  · rw [(ReportView.colourOnly_table hv).withoutColours_eq, ReportView.untrimmedTable_eq_iff]
  · have hrow := ReportView.colourOnly_outcomeRow hv (hv.outcomes o ho)
    refine ⟨v.outcomeRow false o, ?_, rfl⟩
    rw [ReportView.outcomeLine_true, (colourOnly_line hrow).withoutColours_eq]

/-- An event that a rule books under a project, with a rule that is left out. -/
theorem colours_add_codes_booked :
    let e : Event := { id := some "e1", title := some "Acme sync" }
    let q : Query := ⟨[.anyOf [.term ⟨"titel", "sync"⟩]]⟩
    let p : Preview := ⟨"title:sync", 1, [e]⟩
    let m : Match := ⟨.rule, "r", none, .project "acme"⟩
    let v : ReportView :=
      ⟨⟨[⟨0, some "e1", some m⟩], ⟨1, 0, 0⟩⟩, [e], [⟨"none", .emptyQuery⟩], true⟩
    (∀ e ∈ p.shown, e.NoEscapes) ∧ withoutColours (p.table true) = p.table false ∧
      (∀ t ∈ q.terms, t.NoEscapes) ∧ withoutColours (q.tree true) = q.tree false ∧
      v.NoEscapes ∧ (∀ o ∈ v.visible, o.EndsInText) ∧
      withoutColours (v.table true) = v.table false := by
  intro e q p m v
  have he : e.NoEscapes := by
    constructor <;> intro s hs <;> cases hs <;> decide
  have hp : ∀ e ∈ p.shown, e.NoEscapes := by simpa [p] using he
  have hq : ∀ t ∈ q.terms, t.NoEscapes := by
    intro t ht
    rw [List.mem_singleton.mp ht]
    exact ⟨by decide, by decide⟩
  have ho : (⟨0, some "e1", some m⟩ : Outcome).NoEscapes := by
    refine ⟨fun s hs => ?_, fun m' hm id hid => ?_⟩
    · cases hs
      decide
    · cases hm
      cases hid
      decide
  have hv : v.NoEscapes := by
    refine ⟨hp, by simpa [v] using ho, ?_⟩
    simp only [v, List.forall_mem_singleton]
    exact ⟨by decide, by simp⟩
  have hends : ∀ o ∈ v.visible, o.EndsInText := by
    intro o hmem m' hm id hid
    rw [List.mem_singleton.mp hmem] at hm
    cases hm
    cases hid
    exact ⟨'e', by decide, by decide⟩
  obtain ⟨hpreview, hquery, hreport, -⟩ := colours_add_codes hp hq hv
  exact ⟨hp, hpreview, hq, hquery, hv, hends, hreport.mpr hends⟩

/-- In colour a blank after the name of the project stays in the row. -/
theorem ReportView.coloured_row_keeps_blank :
    let c := Classifier.ofBook ⟨[{ id := "r", query := "title:a", target := .project "acme " }], []⟩
    let v := ReportView.of c [{ title := some "a" }] false
    v.NoEscapes ∧ withoutColours (v.table true) ≠ v.table false := by
  intro c v
  let m : Match := ⟨.rule, "r", none, .project "acme "⟩
  have hview : v = ⟨⟨[⟨0, none, some m⟩], ⟨1, 0, 0⟩⟩, [{ title := some "a" }], [], false⟩ := by
    decide +kernel
  have hv : v.NoEscapes := by
    rw [hview]
    refine ⟨?_, ?_, by simp⟩
    · simp only [List.forall_mem_singleton]
      constructor <;> intro s hs <;> cases hs
      decide
    · simp only [List.forall_mem_singleton]
      refine ⟨by simp, fun m' hm id hid => ?_⟩
      cases hm
      cases hid
      decide
  refine ⟨hv, fun h => ?_⟩
  rw [(ReportView.colourOnly_table hv).withoutColours_eq, ReportView.untrimmedTable_eq_iff,
    hview] at h
  obtain ⟨c, hlast, hc⟩ := h _ List.mem_cons_self m rfl "acme " rfl
  have hspace : "acme ".toList.getLast? = some ' ' := by decide
  rw [← Option.some.inj (hspace.symm.trans hlast)] at hc
  exact absurd hc (by decide)

end CalendarRules
