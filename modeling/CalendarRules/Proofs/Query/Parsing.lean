import CalendarRules.Proofs.Query.Words
import CalendarRules.Query.Parse

/-!
# A text is a query exactly when the grammar says so

The reader keeps a stack of open groups, and the grammar nests. A row of items moves the reader
from its start to its end, whatever the stack is. Backwards, `Finishes` says what the stack still
asks of the text.
-/

namespace CalendarRules.Query

open Text Grammar

/-! ## Steps of the reader -/

section Steps

variable {opens : List OpenGroup} {done : List Node} {cs rest : List Char}

theorem parseFrom_eq (opens : List OpenGroup) (done : List Node) (cs : List Char) :
    parseFrom opens done cs =
      match readWord cs with
      | .error fault => .error fault
      | .ok none =>
        match opens with
        | [] => .ok done.reverse
        | group :: _ => .error (.unclosedParenthesis group.place)
      | .ok (some w) =>
        match w.token, opens with
        | .term t, _ => parseFrom opens (.term t :: done) w.rest
        | .openParen, _ => parseFrom (⟨w.place, done⟩ :: opens) [] w.rest
        | .closeParen, [] => .error (.unexpectedCloseParen w.place)
        | .closeParen, group :: opens =>
          parseFrom opens (.anyOf done.reverse :: group.before) w.rest
        | .or, [] => .error (.expectedColon "or" w.rest)
        | .or, _ :: _ => parseFrom opens done w.rest := by
  -- The step as it is defined also carries the proof that the rest is shorter.
  conv => lhs; rw [parseFrom.eq_def]
  split
  · rename_i fault h
    rw [h]
  · rename_i h
    cases opens <;> simp only [h]
  · rename_i w h
    cases ht : w.token <;> cases opens <;> simp only [h, ht]

theorem parseFrom_nil : parseFrom [] done [] = .ok done.reverse := by
  rw [parseFrom_eq]
  rfl

theorem parseFrom_separator {c : Char} (hc : Separator c) :
    parseFrom opens done (c :: cs) = parseFrom opens done cs := by
  rw [parseFrom_eq, readWord_separator hc, ← parseFrom_eq]

theorem parseFrom_term {t : Term} (h : TermText cs t rest) :
    parseFrom opens done cs = parseFrom opens (.term t :: done) rest := by
  rw [parseFrom_eq, readWord_of_wordText (.term h)]

theorem parseFrom_openParen :
    parseFrom opens done ('(' :: rest) = parseFrom (⟨'(' :: rest, done⟩ :: opens) [] rest := by
  rw [parseFrom_eq, readWord_of_wordText (.openParen rest)]

theorem parseFrom_closeParen {group : OpenGroup} :
    parseFrom (group :: opens) done (')' :: rest) =
      parseFrom opens (.anyOf done.reverse :: group.before) rest := by
  rw [parseFrom_eq, readWord_of_wordText (.closeParen rest)]

theorem parseFrom_keyword {group : OpenGroup} (h : Keyword cs rest) :
    parseFrom (group :: opens) done cs = parseFrom (group :: opens) done rest := by
  rw [parseFrom_eq, readWord_of_wordText (.or h)]

end Steps

/-! ## From the grammar to the reader -/

theorem parseFrom_items {inGroup : Bool} {cs rest : List Char} {ns : List Node}
    (h : Items inGroup cs ns rest) (opens : List OpenGroup) (done : List Node)
    (hopen : inGroup = true → opens ≠ []) :
    parseFrom opens done cs = parseFrom opens (ns.reverse ++ done) rest := by
  induction h generalizing opens done with
  | stop => rfl
  | separator hc h ih => rw [parseFrom_separator hc, ih opens done hopen]
  | term ht h ih =>
    rw [parseFrom_term ht, ih opens _ hopen]
    simp
  | @group _ cs after rest ms ns hms h ihms ih =>
    -- The members are read with one more group open, and the parenthesis closes it.
    rw [parseFrom_openParen, ihms _ _ (fun _ => by simp), parseFrom_closeParen, ih opens _ hopen]
    simp
  | keyword hk h ih =>
    obtain ⟨group, opens, rfl⟩ := List.exists_cons_of_ne_nil (hopen rfl)
    rw [parseFrom_keyword hk, ih _ _ hopen]

theorem parseFrom_of_items {cs : List Char} {ns : List Node} (h : Items false cs ns []) :
    parseFrom [] [] cs = .ok ns := by
  rw [parseFrom_items h [] [] (by simp), parseFrom_nil]
  simp

/-! ## From the reader to the grammar -/

/-- What the stack asks of the text after the nodes `ns` of the innermost row: the parenthesis of
each group, the rows that go on around it, and the end of the text. -/
inductive Finishes : List OpenGroup → List Node → List Char → List Node → Prop
  | done (ns : List Node) : Finishes [] ns [] ns
  | close {group : OpenGroup} {opens : List OpenGroup} {ns ms items : List Node}
    {after rest : List Char} (hms : Items (!opens.isEmpty) after ms rest)
    (h : Finishes opens (group.before.reverse ++ .anyOf ns :: ms) rest items) :
    Finishes (group :: opens) ns (')' :: after) items

theorem items_separators {inGroup : Bool} {seps cs rest : List Char} {ns : List Node}
    (hseps : ∀ c ∈ seps, Separator c) (h : Items inGroup cs ns rest) :
    Items inGroup (seps ++ cs) ns rest := by
  induction seps with
  | nil => exact h
  | cons c seps ih =>
    exact .separator (hseps c (by simp)) (ih (fun d hd => hseps d (by simp [hd])))

theorem wordText_of_token {cs : List Char} {w : Word} {tok : Token}
    (hw : readWord cs = .ok (some w)) (htok : w.token = tok) :
    ∃ seps place, cs = seps ++ place ∧ (∀ c ∈ seps, Separator c) ∧ WordText tok place w.rest := by
  obtain ⟨seps, hcs, hseps, hword⟩ := wordText_of_readWord hw
  rw [htok] at hword
  exact ⟨seps, w.place, hcs, hseps, hword⟩

theorem items_of_parseFrom {opens : List OpenGroup} {done items : List Node} {cs : List Char}
    (h : parseFrom opens done cs = .ok items) :
    ∃ ns rest, Items (!opens.isEmpty) cs ns rest ∧
      Finishes opens (done.reverse ++ ns) rest items := by
  -- A run reads a row of items, and then the groups on the stack are closed one after the other.
  fun_induction parseFrom opens done cs with
  | case1 => cases h
  | case2 done cs hw =>
    cases h
    have hseps := items_separators (separator_of_readWord_none hw) (.stop false [])
    rw [List.append_nil] at hseps
    exact ⟨[], [], hseps, by simpa using .done done.reverse⟩
  | case3 => cases h
  | case4 opens done cs w hw _ t htok ih =>
    obtain ⟨ns, rest, hns, hfin⟩ := ih h
    obtain ⟨seps, place, rfl, hseps, hword⟩ := wordText_of_token hw htok
    cases hword with
    | term ht =>
      exact ⟨.term t :: ns, rest, items_separators hseps (.term ht hns), by simpa using hfin⟩
  | case5 opens done cs w hw _ htok ih =>
    obtain ⟨ms, rest, hms, hfin⟩ := ih h
    obtain ⟨seps, place, rfl, hseps, hword⟩ := wordText_of_token hw htok
    cases hfin with
    | close hns hfin =>
      rename_i ns after rest
      cases hword
      exact ⟨.anyOf ms :: ns, rest, items_separators hseps (.group hms hns), hfin⟩
  | case6 => cases h
  | case7 done cs w hw _ group opens htok ih =>
    rw [List.unattach_reverse, List.unattach_attach] at ih
    obtain ⟨ns, rest, hns, hfin⟩ := ih h
    obtain ⟨seps, place, rfl, hseps, hword⟩ := wordText_of_token hw htok
    cases hword
    refine ⟨[], ')' :: w.rest, items_separators hseps (.stop true _), .close hns ?_⟩
    simpa using hfin
  | case8 => cases h
  | case9 done cs w hw _ group opens htok ih =>
    obtain ⟨ns, rest, hns, hfin⟩ := ih h
    obtain ⟨seps, place, rfl, hseps, hword⟩ := wordText_of_token hw htok
    cases hword with
    | or hk => exact ⟨ns, rest, items_separators hseps (.keyword hk hns), hfin⟩

/-! ## The theorem -/

theorem parseFrom_eq_ok_iff {cs : List Char} {ns : List Node} :
    parseFrom [] [] cs = .ok ns ↔ Items false cs ns [] := by
  constructor
  · intro h
    obtain ⟨ms, rest, hms, hfin⟩ := items_of_parseFrom h
    cases hfin
    exact hms
  · exact parseFrom_of_items

theorem parse_eq_ok_iff (s : String) (q : Query) :
    parse s = .ok q ↔ Derives (trimChars s.toList) q := by
  simp only [parse, Derives, ← parseFrom_eq_ok_iff]
  cases parseFrom [] [] (trimChars s.toList) with
  | error fault => simp
  | ok items =>
    obtain ⟨ns⟩ := q
    simp

/-- A text is read as a query exactly when the trimmed text derives it, every other text has a
fault, and no text derives two queries. -/
theorem parse_iff_derives (s : String) :
    (∀ q, parse s = .ok q ↔ Derives (trim s).toList q) ∧
      ((∃ fault, parse s = .error fault) ↔ ∀ q, ¬ Derives (trim s).toList q) ∧
      ∀ cs, Subsingleton {q // Derives cs q} := by
  have htrim : (trim s).toList = trimChars s.toList := by simp [trim]
  rw [htrim]
  refine ⟨parse_eq_ok_iff s, ?_, ?_⟩
  · simp only [← parse_eq_ok_iff]
    cases parse s <;> simp
  · intro cs
    constructor
    rintro ⟨⟨ns⟩, hns⟩ ⟨⟨ms⟩, hms⟩
    have h := parseFrom_of_items hns
    rw [parseFrom_of_items hms] at h
    cases h
    rfl

-- Words need no separator between them, and `or:` is a name.
example :
    parse "x:y(OR or:a or)B:\"c\\\"d\"" =
      .ok ⟨[.term ⟨"x", "y"⟩, .anyOf [.term ⟨"or", "a"⟩], .term ⟨"b", "c\"d"⟩]⟩ := by
  cbv

end CalendarRules.Query
