import CalendarRules.Proofs.Query.Grammar
import CalendarRules.Proofs.Text.Partners
import CalendarRules.Proofs.Text.Runs
import CalendarRules.Query.Token
import Mathlib

/-!
# The readers of words follow the grammar

One statement for each reader, in both directions. At the end stand the laws of `readWord`, which
is all that the reader of a query looks at.
-/

namespace CalendarRules.Query

open Text Grammar

/-! ## Classes of characters -/

theorem isSeparator_iff (c : Char) : isSeparator c = true ↔ Separator c := by
  simp [isSeparator, Separator, or_assoc]

theorem lowerLetter_iff (c : Char) : LowerLetter c ↔ 97 ≤ c.toNat ∧ c.toNat ≤ 122 := Iff.rfl

theorem letter_iff (c : Char) :
    Letter c ↔ (97 ≤ c.toNat ∧ c.toNat ≤ 122) ∨ (65 ≤ c.toNat ∧ c.toNat ≤ 90) := Iff.rfl

theorem digit_iff (c : Char) : Digit c ↔ 48 ≤ c.toNat ∧ c.toNat ≤ 57 := Iff.rfl

theorem isAlpha_iff (c : Char) : c.isAlpha = true ↔ Letter c := by
  simp only [Char.isAlpha, Char.isUpper, Char.isLower, Bool.or_eq_true, Bool.and_eq_true,
    decide_eq_true_eq]
  rw [or_comm]
  exact Iff.rfl

theorem isDigit_iff (c : Char) : c.isDigit = true ↔ Digit c := Char.isDigit_iff_toNat

/-- A name goes on with these. -/
def Grammar.NameChar (c : Char) : Prop := Letter c ∨ Digit c ∨ c = '-'

theorem isNameChar_iff (c : Char) : isNameChar c = true ↔ NameChar c := by
  simp only [isNameChar, Char.isAlphanum, Bool.or_eq_true, isAlpha_iff, isDigit_iff, beq_iff_eq,
    or_assoc, NameChar]

theorem isBareChar_iff (c : Char) : isBareChar c = true ↔ BareChar c := by
  simp only [isBareChar, BareChar, Bool.not_eq_true', Bool.or_eq_false_iff, beq_eq_false_iff_ne,
    ne_eq, ← isSeparator_iff, Bool.not_eq_true, and_assoc]

/-! ## Lower case -/

theorem toLower_eq_iff {c d u : Char} (hd : LowerLetter d) (hu : d.toNat = u.toNat + 32) :
    c.toLower = d ↔ c = d ∨ c = u := by
  rw [lowerLetter_iff] at hd
  simp only [← Char.toNat_inj, toNat_toLower]
  split <;> omega

theorem lowerLetter_toLower {c : Char} (h : Letter c) : LowerLetter c.toLower := by
  rw [letter_iff] at h
  rw [lowerLetter_iff, toNat_toLower]
  split <;> omega

theorem toLower_of_lowerLetter {c : Char} (h : LowerLetter c) : c.toLower = c := by
  rw [lowerLetter_iff] at h
  rw [← Char.toNat_inj, toNat_toLower, if_neg (by omega)]

theorem toLower_of_digit {c : Char} (h : Digit c) : c.toLower = c := by
  rw [digit_iff] at h
  rw [← Char.toNat_inj, toNat_toLower, if_neg (by omega)]

/-! ## Values -/

theorem readQuoted?_of_quoted {cs value rest : List Char} (h : Quoted cs value rest) :
    readQuoted? cs = some (value, rest) := by
  induction h with
  | close rest => simp [readQuoted?]
  | escape c h ih => simp [readQuoted?, ih]
  | plain hq hb h ih => simp [readQuoted?, hb, ih]

theorem quoted_of_readQuoted? {cs value rest : List Char}
    (h : readQuoted? cs = some (value, rest)) : Quoted cs value rest := by
  fun_induction readQuoted? cs generalizing value with
  | case1 => cases h
  | case2 cs => cases h; exact .close _
  | case3 c cs ih =>
    obtain ⟨⟨v, r⟩, hr, he⟩ := Option.map_eq_some_iff.mp h
    cases he
    exact .escape c (ih hr)
  | case4 c cs hq hb ih =>
    obtain ⟨⟨v, r⟩, hr, he⟩ := Option.map_eq_some_iff.mp h
    cases he
    -- A backslash comes here only as the last character, and then nothing closes the value.
    have hb' : c ≠ '\\' := by
      rintro rfl
      cases cs with
      | nil => simp [readQuoted?] at hr
      | cons d ds => exact hb d ds rfl rfl
    exact .plain hq hb' (ih hr)

theorem readQuoted?_eq_some_iff {cs value rest : List Char} :
    readQuoted? cs = some (value, rest) ↔ Quoted cs value rest :=
  ⟨quoted_of_readQuoted?, readQuoted?_of_quoted⟩

theorem value_of_readValue {cs value rest : List Char} (h : readValue cs = .ok (value, rest)) :
    Value cs value rest := by
  unfold readValue at h
  split at h
  · split at h
    · rename_i found hq
      cases h
      exact .quoted (readQuoted?_eq_some_iff.mp hq)
    · cases h
  · rename_i hstart
    split at h
    · cases h
    · rename_i hne
      cases h
      have hbare : Value (cs.takeWhile isBareChar ++ cs.dropWhile isBareChar)
          (cs.takeWhile isBareChar) (cs.dropWhile isBareChar) := by
        apply Value.bare hne
        · rw [List.head?_takeWhile]
          intro hq
          obtain ⟨tail, rfl⟩ := List.head?_eq_some_iff.mp (Option.filter_eq_some_iff.mp hq).1
          exact hstart tail rfl
        · intro c hc
          exact (isBareChar_iff c).mp (List.mem_takeWhile_imp hc)
        · intro c hc hb
          have := of_mem_head?_dropWhile hc
          rw [(isBareChar_iff c).mpr hb] at this
          cases this
      rwa [List.takeWhile_append_dropWhile] at hbare

theorem readValue_of_value {cs value rest : List Char} (h : Value cs value rest) :
    readValue cs = .ok (value, rest) := by
  cases h with
  | quoted h => simp [readValue, readQuoted?_eq_some_iff.mpr h]
  | bare hne hstart hbare hend =>
    obtain ⟨htake, hdrop⟩ := takeWhile_run isBareChar value rest
      (fun c hc => (isBareChar_iff c).mpr (hbare c hc))
      (fun c hc => Bool.eq_false_iff.mpr (fun h => hend c hc ((isBareChar_iff c).mp h)))
    obtain ⟨v, vs, rfl⟩ := List.exists_cons_of_ne_nil hne
    unfold readValue
    rw [htake, hdrop]
    split
    · rename_i heq
      cases heq
      exact absurd rfl hstart
    · rfl

theorem readValue_eq_ok_iff {cs value rest : List Char} :
    readValue cs = .ok (value, rest) ↔ Value cs value rest :=
  ⟨value_of_readValue, readValue_of_value⟩

/-! ## Names -/

theorem nameChar_of_name {name : List Char} (h : Name Letter name) : ∀ c ∈ name, NameChar c := by
  cases name with
  | nil => exact h.elim
  | cons c cs =>
    intro d hd
    rcases List.mem_cons.mp hd with rfl | hd
    · exact .inl h.1
    · exact h.2 d hd

theorem name_run {name rest : List Char} (hname : ∀ c ∈ name, NameChar c)
    (hend : ∀ c ∈ rest.head?, ¬ NameChar c) :
    (name ++ rest).takeWhile isNameChar = name ∧ (name ++ rest).dropWhile isNameChar = rest := by
  apply takeWhile_run
  · exact fun c hc => (isNameChar_iff c).mpr (hname c hc)
  · intro c hc
    rw [Bool.eq_false_iff, ne_eq, isNameChar_iff]
    exact hend c hc

theorem name_unique {name name' rest rest' : List Char} (hname : Name Letter name)
    (hend : ∀ c ∈ rest.head?, ¬ NameChar c) (hname' : Name Letter name')
    (hend' : ∀ c ∈ rest'.head?, ¬ NameChar c) (h : name ++ rest = name' ++ rest') :
    name = name' ∧ rest = rest' := by
  obtain ⟨htake, hdrop⟩ := name_run (nameChar_of_name hname) hend
  obtain ⟨htake', hdrop'⟩ := name_run (nameChar_of_name hname') hend'
  rw [h] at htake hdrop
  exact ⟨htake.symm.trans htake', hdrop.symm.trans hdrop'⟩

theorem not_nameChar_colon {rest : List Char} : ∀ c ∈ (':' :: rest).head?, ¬ NameChar c := by
  simp [NameChar, Letter, LowerLetter, Digit]

theorem exists_name {c : Char} (hc : Letter c) (cs : List Char) :
    ∃ name rest, cs = name ++ rest ∧ Name Letter (c :: name) ∧
      ∀ d ∈ rest.head?, ¬ NameChar d := by
  refine ⟨cs.takeWhile isNameChar, cs.dropWhile isNameChar,
    List.takeWhile_append_dropWhile.symm, ⟨hc, fun d hd => ?_⟩, fun d hd => ?_⟩
  · exact (isNameChar_iff d).mp (List.mem_takeWhile_imp hd)
  · rw [← isNameChar_iff, of_mem_head?_dropWhile hd]
    decide

/-! ## Terms -/

theorem readTerm_of_not_letter {c : Char} {cs : List Char} (hc : ¬ Letter c) :
    readTerm c cs = .error (.expectedProperty c (c :: cs)) := by
  rw [← isAlpha_iff] at hc
  rw [readTerm, if_neg hc]

theorem readTerm_of_colon {c : Char} {name after : List Char} (hname : Name Letter (c :: name)) :
    readTerm c (name ++ ':' :: after) =
      (readValue after).map fun (value, rest) =>
        (⟨String.ofList ((c :: name).map Char.toLower), String.ofList value⟩, rest) := by
  obtain ⟨htake, hdrop⟩ := name_run hname.2 (@not_nameChar_colon after)
  unfold readTerm
  rw [if_pos ((isAlpha_iff c).mpr hname.1), htake, hdrop]
  simp only
  cases readValue after <;> rfl

theorem readTerm_of_no_colon {c : Char} {name rest : List Char} (hname : Name Letter (c :: name))
    (hend : ∀ d ∈ rest.head?, ¬ NameChar d ∧ d ≠ ':') :
    readTerm c (name ++ rest) =
      .error (.expectedColon (String.ofList ((c :: name).map Char.toLower)) rest) := by
  obtain ⟨htake, hdrop⟩ := name_run hname.2 fun d hd => (hend d hd).1
  unfold readTerm
  rw [if_pos ((isAlpha_iff c).mpr hname.1), htake, hdrop]
  simp only
  split
  · exact absurd rfl (hend ':' rfl).2
  · rfl

theorem readTerm_cases (c : Char) (cs : List Char) :
    (¬ Letter c ∧ readTerm c cs = .error (.expectedProperty c (c :: cs))) ∨
      ∃ name rest, c :: cs = name ++ rest ∧ Name Letter name ∧
        (((∀ d ∈ rest.head?, ¬ NameChar d ∧ d ≠ ':') ∧
            readTerm c cs =
              .error (.expectedColon (String.ofList (name.map Char.toLower)) rest)) ∨
          ∃ after, rest = ':' :: after ∧
            readTerm c cs = (readValue after).map fun (value, rest) =>
              (⟨String.ofList (name.map Char.toLower), String.ofList value⟩, rest)) := by
  by_cases hc : Letter c
  · obtain ⟨name, rest, rfl, hname, hend⟩ := exists_name hc cs
    refine .inr ⟨c :: name, rest, rfl, hname, ?_⟩
    by_cases hcolon : rest.head? = some ':'
    · obtain ⟨after, rfl⟩ := List.head?_eq_some_iff.mp hcolon
      exact .inr ⟨after, rfl, readTerm_of_colon hname⟩
    · have hend (d : Char) (hd : d ∈ rest.head?) : ¬ NameChar d ∧ d ≠ ':' :=
        ⟨hend d hd, fun h => hcolon (h ▸ hd)⟩
      exact .inl ⟨hend, readTerm_of_no_colon hname hend⟩
  · exact .inl ⟨hc, readTerm_of_not_letter hc⟩

theorem termText_of_readTerm {c : Char} {cs rest : List Char} {t : Term}
    (h : readTerm c cs = .ok (t, rest)) : TermText (c :: cs) t rest := by
  obtain ⟨-, hfault⟩ | ⟨name, tail, hcs, hname, ⟨-, hfault⟩ | ⟨after, rfl, hvalue⟩⟩ :=
    readTerm_cases c cs
  · rw [h] at hfault
    cases hfault
  · rw [h] at hfault
    cases hfault
  · rw [h] at hvalue
    cases hv : readValue after with
    | error fault => rw [hv] at hvalue; cases hvalue
    | ok found =>
      rw [hv] at hvalue
      cases hvalue
      rw [hcs]
      exact .intro hname (readValue_eq_ok_iff.mp hv)

theorem readTerm_of_termText {c : Char} {cs rest : List Char} {t : Term}
    (h : TermText (c :: cs) t rest) : readTerm c cs = .ok (t, rest) := by
  generalize hcs : c :: cs = text at h
  obtain ⟨hname, hvalue⟩ := h
  rename_i name after value
  cases name with
  | nil => exact hname.elim
  | cons d name =>
    simp only [List.cons_append, List.cons.injEq] at hcs
    obtain ⟨rfl, rfl⟩ := hcs
    rw [readTerm_of_colon hname, readValue_eq_ok_iff.mpr hvalue]
    rfl

theorem readTerm_eq_ok_iff {c : Char} {cs rest : List Char} {t : Term} :
    readTerm c cs = .ok (t, rest) ↔ TermText (c :: cs) t rest :=
  ⟨termText_of_readTerm, readTerm_of_termText⟩

/-! ## The keyword -/

theorem endsKeyword_iff (cs : List Char) :
    endsKeyword cs = true ↔ ∀ c ∈ cs.head?, Separator c ∨ c = ')' := by
  cases cs with
  | nil => simp [endsKeyword]
  | cons c cs => simp [endsKeyword, isSeparator_iff]

theorem readOr?_eq_some_iff {cs rest : List Char} : readOr? cs = some rest ↔ Keyword cs rest := by
  have ho (c : Char) : c.toLower = 'o' ↔ c = 'o' ∨ c = 'O' :=
    toLower_eq_iff ⟨by decide, by decide⟩ rfl
  have hr (c : Char) : c.toLower = 'r' ↔ c = 'r' ∨ c = 'R' :=
    toLower_eq_iff ⟨by decide, by decide⟩ rfl
  constructor
  · intro h
    unfold readOr? at h
    split at h
    · split at h
      · rename_i hk
        cases h
        simp only [Bool.and_eq_true, decide_eq_true_eq, ho, hr, endsKeyword_iff] at hk
        exact .intro hk.1.1 hk.1.2 hk.2
      · cases h
    · cases h
  · rintro ⟨h1, h2, hend⟩
    simp [readOr?, ho, hr, h1, h2, (endsKeyword_iff rest).mpr hend]

theorem readOr?_eq_none_iff {cs : List Char} : readOr? cs = none ↔ ∀ after, ¬ Keyword cs after := by
  simp only [Option.eq_none_iff_forall_ne_some, ne_eq, readOr?_eq_some_iff]

theorem name_of_keyword {cs rest : List Char} (h : Keyword cs rest) :
    ∃ name, cs = name ++ rest ∧ Name Letter name ∧
      String.ofList (name.map Char.toLower) = "or" ∧
        ∀ c ∈ rest.head?, ¬ NameChar c ∧ c ≠ ':' := by
  obtain ⟨ho, hr, hend⟩ := h
  rename_i o r
  refine ⟨[o, r], rfl, ?_, ?_, ?_⟩
  · rcases ho with rfl | rfl <;> rcases hr with rfl | rfl <;> simp [Name, Letter, LowerLetter]
  · rcases ho with rfl | rfl <;> rcases hr with rfl | rfl <;> rfl
  · intro c hc
    rcases hend c hc with (rfl | rfl | rfl | rfl) | rfl <;>
      simp [NameChar, Letter, LowerLetter, Digit]

theorem not_keyword_of_colon {name rest after : List Char} (hname : Name Letter name) :
    ¬ Keyword (name ++ ':' :: rest) after := by
  intro h
  obtain ⟨name', htext, hname', -, hend⟩ := name_of_keyword h
  obtain ⟨-, rfl⟩ := name_unique hname not_nameChar_colon hname' (fun c hc => (hend c hc).1) htext
  exact (hend ':' rfl).2 rfl

theorem not_keyword_of_termText {cs rest after : List Char} {t : Term} (h : TermText cs t rest) :
    ¬ Keyword cs after := by
  obtain ⟨hname, -⟩ := h
  exact not_keyword_of_colon hname

/-! ## Words -/

/-- What the grammar says of a word. -/
inductive WordText : Token → List Char → List Char → Prop
  | term {cs rest : List Char} {t : Term} (h : TermText cs t rest) : WordText (.term t) cs rest
  | openParen (rest : List Char) : WordText .openParen ('(' :: rest) rest
  | closeParen (rest : List Char) : WordText .closeParen (')' :: rest) rest
  | or {cs rest : List Char} (h : Keyword cs rest) : WordText .or cs rest

theorem readWord_separator {c : Char} {cs : List Char} (hc : Separator c) :
    readWord (c :: cs) = readWord cs := by
  unfold readWord skipSeparators
  rw [List.dropWhile_cons_of_pos ((isSeparator_iff c).mpr hc)]

theorem readWord_of_letter {c : Char} {cs : List Char} (hc : Letter c) :
    readWord (c :: cs) =
      match readOr? (c :: cs) with
      | some after => .ok (some ⟨.or, c :: cs, after⟩)
      | none => (readTerm c cs).map fun (t, after) => some ⟨.term t, c :: cs, after⟩ := by
  have hsep : ¬ isSeparator c = true := by
    intro h
    revert hc
    rcases (isSeparator_iff c).mp h with rfl | rfl | rfl | rfl <;> decide
  have hopen : c ≠ '(' := by rintro rfl; revert hc; decide
  have hclose : c ≠ ')' := by rintro rfl; revert hc; decide
  unfold readWord skipSeparators
  rw [List.dropWhile_cons_of_neg hsep]
  simp only [if_neg hopen, if_neg hclose]
  rfl

theorem letter_of_termText {cs rest : List Char} {t : Term} (h : TermText cs t rest) :
    ∃ c tail, cs = c :: tail ∧ Letter c := by
  obtain ⟨hname, hvalue⟩ := h
  rename_i name after value
  cases name with
  | nil => exact hname.elim
  | cons c name => exact ⟨c, name ++ ':' :: after, rfl, hname.1⟩

theorem letter_of_keyword {cs rest : List Char} (h : Keyword cs rest) :
    ∃ c tail, cs = c :: tail ∧ Letter c := by
  obtain ⟨ho, hr, hend⟩ := h
  rename_i o r
  refine ⟨o, r :: rest, rfl, ?_⟩
  rcases ho with rfl | rfl <;> decide

theorem readWord_of_wordText {tok : Token} {cs rest : List Char} (h : WordText tok cs rest) :
    readWord cs = .ok (some ⟨tok, cs, rest⟩) := by
  cases h with
  | openParen => simp [readWord, skipSeparators, isSeparator]
  | closeParen => simp [readWord, skipSeparators, isSeparator]
  | term h =>
    obtain ⟨c, tail, rfl, hc⟩ := letter_of_termText h
    have hor : readOr? (c :: tail) = none :=
      readOr?_eq_none_iff.mpr fun after => not_keyword_of_termText h
    rw [readWord_of_letter hc, hor, readTerm_eq_ok_iff.mpr h]
    rfl
  | or h =>
    obtain ⟨c, tail, rfl, hc⟩ := letter_of_keyword h
    rw [readWord_of_letter hc, readOr?_eq_some_iff.mpr h]

theorem readWord_cases (cs : List Char) :
    ∃ seps place, cs = seps ++ place ∧ (∀ c ∈ seps, Separator c) ∧
      ((place = [] ∧ readWord cs = .ok none) ∨
        (∃ tok rest, WordText tok place rest ∧ readWord cs = .ok (some ⟨tok, place, rest⟩)) ∨
        ∃ c tail fault, place = c :: tail ∧ ¬ Separator c ∧ c ≠ '(' ∧ c ≠ ')' ∧
          (∀ after, ¬ Keyword place after) ∧ readTerm c tail = .error fault ∧
            readWord cs = .error fault) := by
  refine ⟨cs.takeWhile isSeparator, skipSeparators cs, List.takeWhile_append_dropWhile.symm,
    fun c hc => (isSeparator_iff c).mp (List.mem_takeWhile_imp hc), ?_⟩
  unfold readWord
  split
  · rename_i hs
    exact .inl ⟨hs, rfl⟩
  · rename_i c tail hs
    rw [hs]
    refine .inr ?_
    split_ifs with hopen hclose
    · subst hopen
      exact .inl ⟨.openParen, tail, .openParen tail, rfl⟩
    · subst hclose
      exact .inl ⟨.closeParen, tail, .closeParen tail, rfl⟩
    · split
      · rename_i after hk
        exact .inl ⟨.or, after, .or (readOr?_eq_some_iff.mp hk), rfl⟩
      · rename_i hk
        cases ht : readTerm c tail with
        | error fault =>
          have hsep : ¬ Separator c := by
            have hhead : c ∈ (cs.dropWhile isSeparator).head? := by
              rw [← skipSeparators, hs]
              rfl
            rw [← isSeparator_iff, of_mem_head?_dropWhile hhead]
            decide
          exact .inr
            ⟨c, tail, fault, rfl, hsep, hopen, hclose, readOr?_eq_none_iff.mp hk, ht, rfl⟩
        | ok term => exact .inl ⟨.term term.1, term.2, .term (readTerm_eq_ok_iff.mp ht), rfl⟩

theorem separator_of_readWord_none {cs : List Char} (h : readWord cs = .ok none) :
    ∀ c ∈ cs, Separator c := by
  obtain ⟨seps, place, rfl, hseps, hread⟩ := readWord_cases cs
  rw [h] at hread
  obtain ⟨rfl, -⟩ | ⟨tok, rest, -, hfound⟩ | ⟨c, tail, fault, -, -, -, -, -, -, hfault⟩ := hread
  · rwa [List.append_nil]
  · cases hfound
  · cases hfault

theorem wordText_of_readWord {cs : List Char} {w : Word} (h : readWord cs = .ok (some w)) :
    ∃ seps, cs = seps ++ w.place ∧ (∀ c ∈ seps, Separator c) ∧ WordText w.token w.place w.rest := by
  obtain ⟨seps, place, rfl, hseps, hread⟩ := readWord_cases cs
  rw [h] at hread
  obtain ⟨-, hend⟩ | ⟨tok, rest, hword, hfound⟩ | ⟨c, tail, fault, -, -, -, -, -, -, hfault⟩ :=
    hread
  · cases hend
  · cases hfound
    exact ⟨seps, rfl, hseps, hword⟩
  · cases hfault

end CalendarRules.Query
