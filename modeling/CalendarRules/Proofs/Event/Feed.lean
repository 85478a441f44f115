import CalendarRules.Event.Feed
import CalendarRules.Proofs.Event.Spelled
import CalendarRules.Proofs.Json.Line
import CalendarRules.Proofs.Text.Lines
import Mathlib.Data.List.Forall2

/-!
# Feeds as arrays and as lines

A list of events reads the same from its array and from its lines. A feed of lines is read as a
whole or not at all.
-/

namespace CalendarRules.Feed

open Text Json

/-! ## Arrays -/

theorem eventItems?_eq {room : Nat} {sources : List Source} {es : List Event}
    (h : itemValues? room sources = some (es.map Event.toValue)) :
    eventItems? room sources = some (es.map Event.reread) := by
  induction sources generalizing es with
  | nil =>
    rw [itemValues?, Option.some.injEq] at h
    rw [List.map_eq_nil_iff.mp h.symm]
    rfl
  | cons source sources ih =>
    simp only [itemValues?, Option.bind_eq_bind, Option.bind_eq_some_iff, Option.some.injEq] at h
    obtain ⟨v, hv, vs, hvs, hcons⟩ := h
    obtain ⟨e, es, rfl, rfl, rfl⟩ := List.map_eq_cons_iff.mp hcons.symm
    have he := (Event.ofSource?_toValue hv).trans e.ofValue?_toValue
    simp [eventItems?, he, ih hvs, Event.reread]

theorem ofArray?_spelled {es : List Event} {cs : List Char}
    (h : Spelled (.list (es.map Event.toValue)) cs) :
    ofArray? cs = some (es.map Event.reread) := by
  obtain ⟨source, hsource, hvalue⟩ := h.ofChars?
  have hroom : (Value.list (es.map Event.toValue)).depth ≤ maxNesting :=
    Nat.le_trans (Event.prints_list es).depth (by decide)
  have hlist := hvalue _ hroom
  cases source with
  | list sources =>
    rw [Source.value?, if_neg (by decide)] at hlist
    obtain ⟨vs, hvs, hv⟩ := Option.map_eq_some_iff.mp hlist
    cases hv
    simp [ofArray?, hsource, eventItems?_eq hvs]
  | _ => simp_all [Source.value?]

theorem exists_bracket {v : Value} {cs : List Char} :
    Spelled v cs → ∀ {vs : List Value}, v = .list vs →
      ∃ b ds, Blank b ∧ cs = b ++ '[' :: ds ∧ Spelled v ('[' :: ds)
  | .emptyList hb, _, rfl => ⟨[], _, blank_nil, rfl, .emptyList hb⟩
  | .list hvs, _, rfl => ⟨[], _, blank_nil, rfl, .list hvs⟩
  | @Spelled.spaced _ b _ b' hb hv hb', _, hlist => by
    obtain ⟨b₁, ds, hb₁, rfl, h⟩ := exists_bracket hv hlist
    refine ⟨b ++ b₁, ds ++ b', ?_, by simp, .spaced blank_nil h hb'⟩
    exact fun c hc => (List.mem_append.mp hc).elim (hb c) (hb₁ c)

theorem isBlank_of_isSpace {c : Char} (h : isSpace c = true) : isBlank c = true := by
  rcases (isSpace_iff c).mp h with rfl | rfl | rfl | rfl <;> rfl

theorem parse_spelled {es : List Event} {cs : List Char}
    (h : Spelled (.list (es.map Event.toValue)) cs) :
    parse (String.ofList cs) = .ok (es.map Event.reread) := by
  obtain ⟨b, ds, hb, rfl, hds⟩ := exists_bracket h rfl
  have htrim : trimStartChars (b ++ '[' :: ds) = '[' :: ds := by
    rw [trimStartChars, List.dropWhile_append_of_pos fun c hc => isBlank_of_isSpace (hb c hc)]
    rfl
  simp only [parse, String.toList_ofList, htrim, ofArray?_spelled hds]

/-! ## Lines -/

def lineEvent? (line : List Char) : Option Event := Event.ofString? (String.ofList line)

def isUnreadable (line : List Char) : Bool := !isBlankLine line && (lineEvent? line).isNone

/-- The events are those on the lines, one from each that is not blank. -/
def Holds (ls : List (List Char)) (es : List Event) : Prop :=
  (ls.filter (!isBlankLine ·)).Forall₂ (fun line e => lineEvent? line = some e) es

theorem ofLines_blank {line : List Char} (h : isBlankLine line = true) (n : Nat)
    (ls : List (List Char)) : ofLines n (line :: ls) = ofLines (n + 1) ls := by
  rw [ofLines, if_pos h]

theorem ofLines_unreadable {line : List Char} (hblank : isBlankLine line = false)
    (h : lineEvent? line = none) (n : Nat) (ls : List (List Char)) :
    ofLines n (line :: ls) = .error (.line n) := by
  rw [lineEvent?] at h
  simp [ofLines, hblank, h]

theorem ofLines_event {line : List Char} {e : Event} (hblank : isBlankLine line = false)
    (h : lineEvent? line = some e) (n : Nat) (ls : List (List Char)) :
    ofLines n (line :: ls) = (ofLines (n + 1) ls).map (e :: ·) := by
  rw [lineEvent?] at h
  simp only [ofLines, hblank, h, Bool.false_eq_true, if_false]
  cases ofLines (n + 1) ls <;> rfl

theorem ofLines_eq_ok_iff (n : Nat) (ls : List (List Char)) (es : List Event) :
    ofLines n ls = .ok es ↔ Holds ls es := by
  induction ls generalizing n es with
  | nil => simp [ofLines, Holds, eq_comm]
  | cons line ls ih =>
    -- A blank line leaves both sides as they are, any other is the first one on both.
    cases hblank : isBlankLine line with
    | true => simp [ofLines_blank hblank, ih, Holds, hblank]
    | false =>
      have hholds : Holds (line :: ls) es ↔
          ∃ e rest, lineEvent? line = some e ∧ Holds ls rest ∧ es = e :: rest := by
        rw [Holds, List.filter_cons_of_pos (by simp [hblank]), List.forall₂_cons_left_iff]
        rfl
      rw [hholds]
      cases hline : lineEvent? line with
      | none => simp [ofLines_unreadable hblank hline]
      | some e =>
        rw [ofLines_event hblank hline]
        simp only [← ih (n + 1)]
        cases ofLines (n + 1) ls <;> simp [Except.map, eq_comm]

theorem ofLines_cons_eq_error_iff {line : List Char} (h : isUnreadable line = false) (n : Nat)
    (ls : List (List Char)) (f : Fault) :
    ofLines n (line :: ls) = .error f ↔ ofLines (n + 1) ls = .error f := by
  cases hblank : isBlankLine line with
  | true => rw [ofLines_blank hblank]
  | false =>
    obtain ⟨e, he⟩ := Option.isSome_iff_exists.mp (by simpa [isUnreadable, hblank] using h)
    rw [ofLines_event hblank he]
    cases ofLines (n + 1) ls <;> simp [Except.map]

theorem ofLines_eq_error_iff (n : Nat) (ls : List (List Char)) (f : Fault) :
    ofLines n ls = .error f ↔ ∃ k, ls.findIdx? isUnreadable = some k ∧ f = .line (n + k) := by
  induction ls generalizing n with
  | nil => simp [ofLines]
  | cons line ls ih =>
    rw [List.findIdx?_cons]
    cases hline : isUnreadable line with
    | true =>
      have hparts : isBlankLine line = false ∧ lineEvent? line = none := by
        simpa [isUnreadable] using hline
      simp [ofLines_unreadable hparts.1 hparts.2, eq_comm]
    | false => simp [ofLines_cons_eq_error_iff hline, ih, Nat.add_assoc, Nat.add_comm 1]

theorem exists_ofLines_eq_ok_iff (n : Nat) (ls : List (List Char)) :
    (∃ es, ofLines n ls = .ok es) ↔ ∀ line ∈ ls, isUnreadable line = false := by
  rw [← List.findIdx?_eq_none_iff]
  have herror := ofLines_eq_error_iff n ls
  cases hlines : ofLines n ls with
  | ok es =>
    refine iff_of_true ⟨es, rfl⟩ (Option.eq_none_iff_forall_ne_some.mpr fun k hk => ?_)
    have h := (herror (.line (n + k))).mpr ⟨k, hk, rfl⟩
    rw [hlines] at h
    cases h
  | error f =>
    obtain ⟨k, hk, -⟩ := (herror f).mp hlines
    simp [hk]

theorem isBlankLine_iff (line : List Char) :
    isBlankLine line = true ↔ (trimStartChars line).head? = none := by
  rw [head?_trimStartChars]
  simp [isBlankLine]

theorem parse_of_laidOut {ls : List (List Char)} {cs : List Char} (h : LaidOut ls cs)
    (hhead : (trimStartChars cs).head? ≠ some '[') : parse (String.ofList cs) = ofLines 1 ls := by
  cases htrim : trimStartChars cs with
  | nil =>
    -- Nothing but blanks: there are no events, and the lines hold none either.
    have hblank : ∀ line ∈ ls, isBlankLine line = true := by
      have hfirst : ls.findSome? (fun l => (trimStartChars l).head?) = none := by
        rw [← h.head?_trimStartChars, htrim]
        rfl
      exact fun line hline =>
        (isBlankLine_iff line).mpr (List.findSome?_eq_none_iff.mp hfirst line hline)
    have hnone : Holds ls [] := by
      rw [Holds, List.filter_eq_nil_iff.mpr (by simpa using hblank)]
      exact .nil
    rw [(ofLines_eq_ok_iff 1 ls []).mpr hnone]
    simp only [parse, String.toList_ofList, htrim]
  | cons c rest =>
    have hc : c ≠ '[' := by simpa [htrim] using hhead
    simp only [parse, String.toList_ofList, htrim]
    split
    case h_1 heq => cases heq
    case h_2 heq => exact absurd (List.cons.inj heq).1 hc
    case h_3 => rw [(lines_eq_iff ls cs).mpr h]

/-! ## Stored events, one on a line -/

/-- A text with some stored events, each on a line of its own. There may be blank lines anywhere. -/
inductive StoredLines : List Event → List Char → Prop where
  | blank {b} (hb : ∀ c ∈ b, isBlank c = true) : StoredLines [] b
  | last (e : Event) : StoredLines [e] e.toValue.compact
  | event (e : Event) {last es cs} (hlast : last = ['\n'] ∨ last = ['\r', '\n'])
      (hcs : StoredLines es cs) : StoredLines (e :: es) (e.toValue.compact ++ last ++ cs)
  | blankLines {b es cs} (hb : ∀ c ∈ b, isBlank c = true) (hcs : StoredLines es cs) :
    StoredLines es (b ++ '\n' :: cs)

theorem exists_cons_compact (e : Event) : ∃ cs, e.toValue.compact = '\x7b' :: cs :=
  ⟨_, rfl⟩

theorem isBlankLine_compact (e : Event) : isBlankLine e.toValue.compact = false := by
  obtain ⟨cs, hcs⟩ := exists_cons_compact e
  rw [hcs]
  rfl

theorem filter_lines_of_blank {b : List Char} (hb : ∀ c ∈ b, isBlank c = true) :
    (lines b).filter (!isBlankLine ·) = [] := by
  rw [List.filter_eq_nil_iff]
  intro line hline
  have hblank : isBlankLine line = true :=
    List.all_eq_true.mpr fun c hc => hb c ((laidOut_lines b).mem hline hc)
  simp [hblank]

theorem StoredLines.filter_lines {es : List Event} {cs : List Char} (h : StoredLines es cs) :
    (lines cs).filter (!isBlankLine ·) = es.map (·.toValue.compact) := by
  induction h with
  | blank hb => exact filter_lines_of_blank hb
  | last e =>
    obtain ⟨cs, hcs⟩ := exists_cons_compact e
    rw [lines_last e.toValue.noControl_compact.lineFeed (by simp [hcs])]
    simp [isBlankLine_compact]
  | @event e last es cs hlast _ ih =>
    have hcompact := e.toValue.noControl_compact
    have hlines : lines (e.toValue.compact ++ last ++ cs) = e.toValue.compact :: lines cs := by
      rw [List.append_assoc]
      rcases hlast with rfl | rfl
      · refine lines_lineFeed hcompact.lineFeed (fun hr => ?_) cs
        exact hcompact.carriageReturn (List.mem_of_getLast? hr)
      · exact lines_returnFeed hcompact.lineFeed cs
    rw [hlines, List.filter_cons_of_pos (by simp [isBlankLine_compact]), ih, List.map_cons]
  | @blankLines b es cs hb _ ih =>
    have hfirst : ∀ c ∈ b ++ ['\n'], isBlank c = true :=
      fun c hc => (List.mem_append.mp hc).elim (hb c) fun hc => by
        rw [List.mem_singleton.mp hc]
        rfl
    rw [lines_append, List.filter_append, filter_lines_of_blank hfirst, List.nil_append, ih]

section
variable {es : List Event} {cs : List Char}

theorem StoredLines.holds (h : StoredLines es cs) : Holds (lines cs) (es.map Event.reread) := by
  rw [Holds, h.filter_lines, List.forall₂_map_left_iff, List.forall₂_map_right_iff,
    List.forall₂_same]
  intro e _
  exact Event.ofString?_spelled (e.toValue.spelled_compact e.prints_toValue.printable)

theorem StoredLines.no_bracket (h : StoredLines es cs) : (trimStartChars cs).head? ≠ some '[' := by
  intro hbracket
  -- The bracket would stand on the line of an event, which starts with a brace.
  rw [(laidOut_lines cs).head?_trimStartChars] at hbracket
  obtain ⟨line, hline, hhead⟩ := List.exists_of_findSome?_eq_some hbracket
  have hblank : isBlankLine line = false := by
    rw [← Bool.not_eq_true, isBlankLine_iff, hhead]
    simp
  have hmem : line ∈ es.map (·.toValue.compact) := by
    rw [← h.filter_lines]
    exact List.mem_filter.mpr ⟨hline, by simp [hblank]⟩
  obtain ⟨e, -, rfl⟩ := List.mem_map.mp hmem
  obtain ⟨cs, hobject⟩ := exists_cons_compact e
  rw [hobject, trimStartChars_cons_of_not_blank _ _ rfl] at hhead
  cases hhead

end

/-! ## Both ways -/

/-- A list of events reads the same from its array, written either way, and from lines with one
stored event each. Lines of which the first character is no bracket are read if each that is not
blank holds an event, and fail at the first one that does not. -/
theorem parse_array_or_lines :
    (∀ es : List Event,
      let array := Value.list (es.map Event.toValue)
      (∀ b b', Blank b → Blank b' →
        parse (String.ofList (b ++ array.compact ++ b')) = .ok (es.map Event.reread) ∧
        parse (String.ofList (b ++ array.pretty 0 ++ b')) = .ok (es.map Event.reread)) ∧
      ∀ cs, StoredLines es cs → parse (String.ofList cs) = .ok (es.map Event.reread)) ∧
    ∀ ls cs, LaidOut ls cs → (trimStartChars cs).head? ≠ some '[' →
      ((∃ es, parse (String.ofList cs) = .ok es) ↔ ∀ line ∈ ls, isUnreadable line = false) ∧
      (∀ es, parse (String.ofList cs) = .ok es ↔ Holds ls es) ∧
      ∀ f, parse (String.ofList cs) = .error f ↔
        ∃ k, ls.findIdx? isUnreadable = some k ∧ f = .line (k + 1) := by
  refine ⟨fun es => ⟨fun b b' hb hb' => ?_, fun cs hstored => ?_⟩, fun ls cs hlines hhead => ?_⟩
  · have hprintable := (Event.prints_list es).printable
    exact ⟨parse_spelled (.spaced hb (Value.spelled_compact _ hprintable) hb'),
      parse_spelled (.spaced hb (Value.spelled_pretty _ hprintable 0) hb')⟩
  · rw [parse_of_laidOut (laidOut_lines cs) hstored.no_bracket, ofLines_eq_ok_iff]
    exact hstored.holds
  · rw [parse_of_laidOut hlines hhead]
    refine ⟨exists_ofLines_eq_ok_iff 1 ls, ofLines_eq_ok_iff 1 ls, fun f => ?_⟩
    rw [ofLines_eq_error_iff]
    simp only [Nat.add_comm 1]

/-- A title with a line break, an event without a flag, and then a line that is no event. -/
theorem parse_array_or_lines_standup :
    let standup : Event := { title := some "Stand\nup" }
    let review : Event := { id := some "7", isRecurring := none }
    let stored := "\t\r\n" ++ standup.toValue.line ++ "\r\n\n" ++ review.toValue.line
    parse (" " ++ (Value.list [standup.toValue, review.toValue]).page) =
        .ok [standup, { review with isRecurring := some false }] ∧
      parse stored = .ok [standup, { review with isRecurring := some false }] ∧
      parse (stored ++ "\n \nreview\n") = .error (.line 6) := by
  intro standup review stored
  obtain ⟨harray, hlines⟩ := parse_array_or_lines.1 [standup, review]
  have hevents : [standup, review].map Event.reread =
      [standup, { review with isRecurring := some false }] := rfl
  refine ⟨?_, ?_, ?_⟩
  · have h := (harray [' '] [] blank_space blank_nil).2
    rw [hevents, List.append_nil, String.ofList_append] at h
    exact h
  · have hstored : StoredLines [standup, review] stored.toList := by
      have hbreak : StoredLines [review] ('\n' :: review.toValue.compact) :=
        .blankLines (b := []) (by simp) (.last review)
      have hrest := StoredLines.event standup (.inr rfl) hbreak
      have hall := StoredLines.blankLines (b := ['\t', '\r']) (List.all_eq_true.mp rfl) hrest
      simpa [stored, Value.line] using hall
    have h := hlines stored.toList hstored
    rwa [hevents, String.ofList_toList] at h
  · have h := (parse_array_or_lines.2 _ (stored ++ "\n \nreview\n").toList (laidOut_lines _)
      (by decide +kernel)).2.2 (.line 6)
    rw [String.ofList_toList] at h
    exact h.mpr ⟨5, by decide +kernel, rfl⟩

end CalendarRules.Feed
