import CalendarRules.Toml.Quoted
import Mathlib.Tactic.SplitIfs

/-!
# Text that is written in a document is read back

Four forms are written, and each has its own reader. Where up to two quotes in a row may stand as
they are, the induction carries the number of quotes just before: only what comes after them tells
whether they close the text.
-/

namespace CalendarRules.Toml

/-! ## Escapes -/

theorem isPlain_of_not_control {c : Char} (h : isControl c = false) (hn : c ≠ '\n') :
    isPlain c = true := by
  simpa [isControl, hn] using h

theorem toNat_lt_of_isControl {c : Char} (h : isControl c = true) : c.toNat < 128 := by
  simp only [isControl, isPlain, Bool.and_eq_true, Bool.not_eq_true', Bool.or_eq_false_iff,
    Bool.and_eq_false_iff, decide_eq_false_iff_not] at h
  rcases h.1.2 with h | h
  · omega
  · have : c.toNat = 0x7f := by simpa using h
    omega

theorem numbered?_fourDigits {n : Nat} (h : n < 128) :
    numbered? (fourDigits n) = some (Char.ofNat n) := by
  decide +kernel +revert

/-- The letter of an escape that no number follows. -/
structure EscapeLetter (d c : Char) : Prop where
  stands : shortEscape? d = some c
  small : d ≠ 'u'
  capital : d ≠ 'U'
  joins : (isBlank d || d = '\n' || d = '\r') = false

/-- A character is written as an escape of one letter, by its number, or as it is. -/
inductive Escaped (overLines : Bool) (c : Char) : List Char → Prop
  | letter {d : Char} (h : EscapeLetter d c) : Escaped overLines c ['\\', d]
  | number {d₁ d₂ d₃ d₄ : Char} (h : numbered? [d₁, d₂, d₃, d₄] = some c) :
    Escaped overLines c ['\\', 'u', d₁, d₂, d₃, d₄]
  | plain (h : isPlain c = true) (hb : c ≠ '\\') : Escaped overLines c [c]
  | lineFeed (h : overLines = true) (hc : c = '\n') : Escaped overLines c [c]

theorem escaped_escapeChar (overLines : Bool) (c : Char) :
    Escaped overLines c (escapeChar overLines c) := by
  unfold escapeChar
  split_ifs with hbs htab hlf hover hff hcr hbackslash hcontrol
  · exact .letter (by subst hbs; exact ⟨rfl, by decide, by decide, by decide⟩)
  · exact .letter (by subst htab; exact ⟨rfl, by decide, by decide, by decide⟩)
  · exact .lineFeed hover hlf
  · exact .letter (by subst hlf; exact ⟨rfl, by decide, by decide, by decide⟩)
  · exact .letter (by subst hff; exact ⟨rfl, by decide, by decide, by decide⟩)
  · exact .letter (by subst hcr; exact ⟨rfl, by decide, by decide, by decide⟩)
  · exact .letter (by subst hbackslash; exact ⟨rfl, by decide, by decide, by decide⟩)
  · have hnumber := numbered?_fourDigits (toNat_lt_of_isControl hcontrol)
    rw [Char.ofNat_toNat] at hnumber
    exact .number hnumber
  · exact .plain (isPlain_of_not_control (by simpa using hcontrol) hlf) hbackslash

theorem Escaped.exists_cons {overLines : Bool} {c : Char} {written : List Char}
    (h : Escaped overLines c written) (hq : c ≠ '"') :
    ∃ d ds, written = d :: ds ∧ d ≠ '"' ∧ d ≠ '\r' ∧ (d = '\n' → c = '\n') := by
  cases h with
  | letter | number => exact ⟨_, _, rfl, by decide, by decide, fun h => absurd h (by decide)⟩
  | plain h =>
    have hr : c ≠ '\r' := by rintro rfl; cases h
    exact ⟨_, _, rfl, hq, hr, id⟩
  | lineFeed _ hc => exact ⟨_, _, rfl, hq, by simp [hc], id⟩

/-! ## On one line -/

section OneLine

variable {c : Char} {cs text rest : List Char}

theorem readBasic?_escaped {written : List Char} (h : Escaped false c written) (hq : c ≠ '"')
    (hread : readBasic? cs = some (text, rest)) :
    readBasic? (written ++ cs) = some (c :: text, rest) := by
  cases h with
  | letter h =>
    rw [List.cons_append, List.cons_append, List.nil_append,
      readBasic?.eq_4 _ _ (by simp [h.small]) (by simp [h.capital])]
    simp [h.stands, hread, before]
  | number h => simp [readBasic?, h, hread, before]
  | plain h hb =>
    rw [List.cons_append, List.nil_append, readBasic?.eq_5]
    · simp [h, hb, hread, before]
    all_goals simp [hq, hb]
  | lineFeed h => cases h

theorem readBasic?_escapeText (cs rest : List Char) :
    readBasic? (escapeText false 0 cs ++ '"' :: rest) = some (cs, rest) := by
  induction cs with
  | nil => simp [escapeText, readBasic?]
  | cons c cs ih =>
    by_cases hq : c = '"'
    · simp [escapeText, quotesInRow, hq, readBasic?, shortEscape?, ih, before]
    · simp only [escapeText, if_neg hq, List.append_assoc]
      exact readBasic?_escaped (escaped_escapeChar false c) hq ih

theorem readLiteral?_of_plain (hcs : ∀ c ∈ cs, isPlain c = true ∧ c ≠ '\'') (rest : List Char) :
    readLiteral? (cs ++ '\'' :: rest) = some (cs, rest) := by
  induction cs with
  | nil => simp [readLiteral?]
  | cons c cs ih =>
    obtain ⟨⟨hplain, hq⟩, hcs⟩ := List.forall_mem_cons.mp hcs
    rw [List.cons_append, readLiteral?.eq_2 _ _ hq, if_pos hplain, ih hcs]
    rfl

end OneLine

/-! ## Over lines -/

section OverLines

variable {c : Char} {cs text rest : List Char} {run : Nat}

theorem readBasicLines?_escaped {written : List Char} (h : Escaped true c written) (hq : c ≠ '"')
    (hread : readBasicLines? .inside cs = some (text, rest)) :
    readBasicLines? .inside (written ++ cs) = some (c :: text, rest) := by
  cases h with
  | letter h =>
    rw [List.cons_append, List.cons_append, List.nil_append,
      readBasicLines?.eq_7 _ _ _ (by simp [h.small]) (by simp [h.capital])]
    simp [h.stands, h.joins, hread, before]
  | number h => simp [readBasicLines?, h, hread, before]
  | plain h hb =>
    have hn : c ≠ '\n' := by rintro rfl; cases h
    have hr : c ≠ '\r' := by rintro rfl; cases h
    rw [List.cons_append, List.nil_append, readBasicLines?.eq_8]
    · simp [h, hb, hread, before]
    all_goals simp [hq, hb, hn, hr]
  | lineFeed h hc => simp [hc, readBasicLines?, hread, before]

theorem readBasicLines?_quotes (hrun : run ≤ 2) (hq : c ≠ '"')
    (hread : readBasicLines? .inside (c :: cs) = some (text, rest)) :
    readBasicLines? .inside (List.replicate run '"' ++ c :: cs) =
      some (List.replicate run '"' ++ text, rest) := by
  have hone : readBasicLines? .inside ('"' :: c :: cs) = some ('"' :: text, rest) := by
    rw [readBasicLines?.eq_8] <;> simp [hq, hread, before, isPlain, isBlank]
  match run, hrun with
  | 0, _ => exact hread
  | 1, _ => exact hone
  | 2, _ =>
    simp only [List.replicate, List.cons_append, List.nil_append]
    rw [readBasicLines?.eq_8] <;> simp [hq, hone, before, isPlain, isBlank]

theorem closing_replicate {q : Char} (hrun : run ≤ 2) (hrest : rest.head? ≠ some q) :
    closing q (List.replicate run q ++ rest) = (List.replicate run q, rest) := by
  match run, hrun with
  | 0, _ =>
    match rest with
    | [] => rfl
    | [c] => simp_all [closing]
    | c :: d :: cs => simp_all [closing]
  | 1, _ =>
    match rest with
    | [] => simp [closing]
    | d :: cs => simp_all [closing]
  | 2, _ => simp [closing]

theorem replicate_append_closing (q : Char) (run : Nat) (rest : List Char) :
    List.replicate run q ++ q :: q :: q :: rest =
      q :: q :: q :: (List.replicate run q ++ rest) := by
  induction run with
  | zero => rfl
  | succ run ih => rw [List.replicate_succ, List.cons_append, ih, List.cons_append]

theorem readBasicLines?_escapeText (hrest : rest.head? ≠ some '"') (cs : List Char) (run : Nat)
    (hrun : run ≤ 2) :
    readBasicLines? .inside
        (List.replicate run '"' ++ (escapeText true run cs ++ '"' :: '"' :: '"' :: rest)) =
      some (List.replicate run '"' ++ cs, rest) := by
  -- The run is of quotes that are written as they are. A third one would end the text.
  induction cs generalizing run with
  | nil =>
    rw [escapeText, List.nil_append, replicate_append_closing, readBasicLines?.eq_4,
      if_neg (by simp), closing_replicate hrun hrest, List.append_nil]
  | cons c cs ih =>
    by_cases hq : c = '"'
    · subst hq
      by_cases hroom : run < 2
      · have h := ih (run + 1) (by omega)
        simpa [escapeText, quotesInRow, hroom, List.replicate_succ', List.append_assoc] using h
      · have h := ih 0 (by omega)
        simp only [escapeText, quotesInRow, if_neg hroom, if_true, List.cons_append]
        refine readBasicLines?_quotes hrun (by decide) ?_
        simpa [shortEscape?, before, isBlank, readBasicLines?] using h
    · have h := readBasicLines?_escaped (escaped_escapeChar true c) hq (ih 0 (by omega))
      obtain ⟨d, ds, hwritten, hd, -⟩ := (escaped_escapeChar true c).exists_cons hq
      simp only [escapeText, if_neg hq, List.append_assoc]
      rw [hwritten, List.cons_append] at h ⊢
      exact readBasicLines?_quotes hrun hd h

theorem readLiteralLines?_quotes (hrun : run ≤ 2) (hq : c ≠ '\'')
    (hread : readLiteralLines? (c :: cs) = some (text, rest)) :
    readLiteralLines? (List.replicate run '\'' ++ c :: cs) =
      some (List.replicate run '\'' ++ text, rest) := by
  have hone : readLiteralLines? ('\'' :: c :: cs) = some ('\'' :: text, rest) := by
    rw [readLiteralLines?.eq_5] <;> simp [hq, hread, before, isPlain]
  match run, hrun with
  | 0, _ => exact hread
  | 1, _ => exact hone
  | 2, _ =>
    simp only [List.replicate, List.cons_append, List.nil_append]
    rw [readLiteralLines?.eq_5] <;> simp [hq, hone, before, isPlain]

theorem readLiteralLines?_of_not_control (hc : isControl c = false) (hq : c ≠ '\'')
    (hread : readLiteralLines? cs = some (text, rest)) :
    readLiteralLines? (c :: cs) = some (c :: text, rest) := by
  by_cases hn : c = '\n'
  · simp [hn, readLiteralLines?, hread, before]
  · have hplain := isPlain_of_not_control hc hn
    have hr : c ≠ '\r' := by rintro rfl; cases hplain
    rw [readLiteralLines?.eq_5] <;> simp [hplain, hq, hn, hr, hread, before]

theorem readLiteralLines?_append (hrest : rest.head? ≠ some '\'') (cs : List Char)
    (hcs : ∀ c ∈ cs, isControl c = false) (run : Nat) (hrun : longestRun '\'' run cs ≤ 2) :
    readLiteralLines?
        (List.replicate run '\'' ++ (cs ++ '\'' :: '\'' :: '\'' :: rest)) =
      some (List.replicate run '\'' ++ cs, rest) := by
  induction cs generalizing run with
  | nil =>
    rw [longestRun] at hrun
    rw [List.nil_append, replicate_append_closing, readLiteralLines?.eq_4,
      closing_replicate hrun hrest, List.append_nil]
  | cons c cs ih =>
    obtain ⟨hc, htail⟩ := List.forall_mem_cons.mp hcs
    by_cases hq : c = '\''
    · subst hq
      have h := ih htail (run + 1) (by simpa [longestRun] using hrun)
      simpa [List.replicate_succ', List.append_assoc] using h
    · rw [longestRun, if_neg hq, Nat.max_le] at hrun
      exact readLiteralLines?_quotes hrun.1 hq
        (readLiteralLines?_of_not_control hc hq (ih htail 0 hrun.2))

end OverLines

/-! ## Any text -/

theorem skipFirstBreak_eq {cs : List Char} (hn : cs.head? ≠ some '\n')
    (hr : cs.head? ≠ some '\r') : skipFirstBreak cs = cs := by
  cases cs with
  | nil => rfl
  | cons c cs => exact skipFirstBreak.eq_3 _ (by simp_all) (by simp_all)

theorem skipFirstBreak_firstBreak {cs written : List Char}
    (hn : written.head? = some '\n' → '\n' ∈ cs) (hr : written.head? ≠ some '\r') :
    skipFirstBreak (firstBreak cs ++ written) = written := by
  by_cases hbreak : '\n' ∈ cs
  · simp [firstBreak, hbreak, skipFirstBreak]
  · simp only [firstBreak, List.contains_eq_mem, hbreak, decide_false, Bool.false_eq_true, if_false,
      List.nil_append]
    exact skipFirstBreak_eq (fun h => hbreak (hn h)) hr

theorem readText?_basicLines (cs : List Char) {rest : List Char} (hrest : rest.head? ≠ some '"') :
    readText? (Form.basicLines.write cs ++ rest) = some (cs, rest) := by
  have hskip :
      skipFirstBreak (firstBreak cs ++ (escapeText true 0 cs ++ '"' :: '"' :: '"' :: rest)) =
        escapeText true 0 cs ++ '"' :: '"' :: '"' :: rest := by
    cases cs with
    | nil => rfl
    | cons c cs =>
      by_cases hq : c = '"'
      · subst hq
        apply skipFirstBreak_firstBreak <;> simp [escapeText, quotesInRow]
      · obtain ⟨d, ds, hwritten, -, hr, hn⟩ := (escaped_escapeChar true c).exists_cons hq
        apply skipFirstBreak_firstBreak <;> simp [escapeText, hq, hwritten]
        · intro hd
          exact .inl (hn hd).symm
        · exact hr
  have hread := readBasicLines?_escapeText hrest cs 0 (by omega)
  rw [← hskip] at hread
  simpa [Form.write, readText?] using hread

theorem readText?_literalLines {cs : List Char} (hsuits : Form.literalLines.suits cs = true)
    {rest : List Char} (hrest : rest.head? ≠ some '\'') :
    readText? (Form.literalLines.write cs ++ rest) = some (cs, rest) := by
  obtain ⟨hcs, hrun⟩ : (∀ c ∈ cs, isControl c = false) ∧ longestRun '\'' 0 cs ≤ 2 := by
    simpa [Form.suits] using hsuits
  have hskip : skipFirstBreak (firstBreak cs ++ (cs ++ '\'' :: '\'' :: '\'' :: rest)) =
      cs ++ '\'' :: '\'' :: '\'' :: rest := by
    cases cs with
    | nil => rfl
    | cons c cs =>
      apply skipFirstBreak_firstBreak
      · simp only [List.cons_append, List.head?_cons, Option.some.injEq]
        exact fun hn => hn ▸ List.mem_cons_self
      · simp only [List.cons_append, List.head?_cons, ne_eq, Option.some.injEq]
        rintro rfl
        exact absurd (hcs '\r' List.mem_cons_self) (by decide)
  have hread := readLiteralLines?_append hrest cs hcs 0 hrun
  simpa [Form.write, readText?, hskip] using hread

theorem readText?_eq_readQuoted? {q : Char} {cs rest : List Char} (hcs : cs.head? ≠ some q)
    (hrest : rest.head? ≠ some q) :
    readText? (q :: (cs ++ q :: rest)) = readQuoted? (q :: (cs ++ q :: rest)) := by
  -- A text on one line does not start with three quotes.
  refine readText?.eq_3 _ ?_ ?_
  all_goals
    rintro tail h
    cases cs with
    | nil => simp_all
    | cons c cs => simp_all

theorem readText?_basic (cs : List Char) {rest : List Char} (hrest : rest.head? ≠ some '"') :
    readText? (Form.basic.write cs ++ rest) = some (cs, rest) := by
  have hread := readBasic?_escapeText cs rest
  have hhead : (escapeText false 0 cs).head? ≠ some '"' := by
    cases cs with
    | nil => simp [escapeText]
    | cons c cs =>
      by_cases hq : c = '"'
      · simp [escapeText, quotesInRow, hq]
      · obtain ⟨d, ds, hwritten, hd, -⟩ := (escaped_escapeChar false c).exists_cons hq
        simpa [escapeText, hq, hwritten] using hd
  have htext := readText?_eq_readQuoted? hhead hrest
  simpa [Form.write, hread, readQuoted?] using htext

theorem readText?_literal {cs : List Char} (hsuits : Form.literal.suits cs = true)
    {rest : List Char} (hrest : rest.head? ≠ some '\'') :
    readText? (Form.literal.write cs ++ rest) = some (cs, rest) := by
  have hchars : ∀ c ∈ cs, (isControl c = false ∧ c ≠ '\'') ∧ c ≠ '\n' := by
    simpa [Form.suits] using hsuits
  have hcs : ∀ c ∈ cs, isPlain c = true ∧ c ≠ '\'' := fun c hc =>
    ⟨isPlain_of_not_control (hchars c hc).1.1 (hchars c hc).2, (hchars c hc).1.2⟩
  have hread := readLiteral?_of_plain hcs rest
  have hhead : cs.head? ≠ some '\'' := fun h => (hcs '\'' (List.mem_of_head? h)).2 rfl
  have htext := readText?_eq_readQuoted? hhead hrest
  simpa [Form.write, hread, readQuoted?] using htext

theorem Form.suits_forText (cs : List Char) :
    (forText cs).suits cs = true ∨ forText cs = basic ∨ forText cs = basicLines := by
  unfold forText
  cases h : [basic, literal, basicLines, literalLines].find? (·.suits cs) with
  | some form => exact .inl (List.find?_some h)
  | none =>
    right
    simp only
    split_ifs
    · exact .inr rfl
    · exact .inl rfl

theorem readText?_writeText (cs : List Char) {rest : List Char}
    (hbasic : rest.head? ≠ some '"') (hliteral : rest.head? ≠ some '\'') :
    readText? (writeText cs ++ rest) = some (cs, rest) := by
  have hsuits := Form.suits_forText cs
  unfold writeText
  cases hform : Form.forText cs with
  | basic => exact readText?_basic cs hbasic
  | basicLines => exact readText?_basicLines cs hbasic
  | literal => exact readText?_literal (by simpa [hform] using hsuits) hliteral
  | literalLines => exact readText?_literalLines (by simpa [hform] using hsuits) hliteral

end CalendarRules.Toml
