import CalendarRules.Proofs.Query.Parsing

/-!
# Where a text stops being a query

The grammar of what is no query: a text is read row by row into its groups, up to a place where no
word stands that is allowed there. The reader finds exactly that place, and the grammar says what is
wrong with it.
-/

namespace CalendarRules.Query

open Text Grammar

namespace Grammar

/-- The text is read up to `rest`, and these groups are open there, the innermost first. A group is
told by its parenthesis and the text after it. -/
inductive Opened : List Char → List (List Char) → List Char → Prop
  | row {cs rest : List Char} {ns : List Node} (h : Items false cs ns rest) : Opened cs [] rest
  | group {cs inside rest : List Char} {groups : List (List Char)} {ns : List Node}
    (h : Opened cs groups ('(' :: inside)) (hns : Items true inside ns rest) :
    Opened cs (('(' :: inside) :: groups) rest

/-- What is wrong with a text that no word can be read from, with these groups open around it.
Outside of a group the keyword is a name like any other. -/
inductive Broken : List (List Char) → List Char → Fault (List Char) → Prop
  | property {groups : List (List Char)} {c : Char} (cs : List Char) (hsep : ¬ Separator c)
    (hopen : c ≠ '(') (hclose : c ≠ ')') (hletter : ¬ Letter c) :
    Broken groups (c :: cs) (.expectedProperty c (c :: cs))
  | colon {groups : List (List Char)} {name rest : List Char} (hname : Name Letter name)
    (hend : ∀ c ∈ rest.head?, ¬ NameChar c ∧ c ≠ ':')
    (hkeyword : groups = [] ∨ ∀ after, ¬ Keyword (name ++ rest) after) :
    Broken groups (name ++ rest) (.expectedColon (String.ofList (name.map Char.toLower)) rest)
  | value {groups : List (List Char)} {name rest : List Char} (hname : Name Letter name)
    (hend : ∀ c ∈ rest.head?, ¬ BareChar c) :
    Broken groups (name ++ ':' :: rest) (.expectedValue rest)
  | quote {groups : List (List Char)} {name cs : List Char} (hname : Name Letter name)
    (hopen : ∀ value rest, ¬ Quoted cs value rest) :
    Broken groups (name ++ ':' :: '"' :: cs) (.unclosedQuote ('"' :: cs))
  | parenthesis (group : List Char) (groups : List (List Char)) :
    Broken (group :: groups) [] (.unclosedParenthesis group)
  | closeParen (rest : List Char) : Broken [] (')' :: rest) (.unexpectedCloseParen (')' :: rest))

/-! ## Rows -/

theorem Items.append {inGroup : Bool} {cs mid rest : List Char} {ms ns : List Node}
    (hms : Items inGroup cs ms mid) (hns : Items inGroup mid ns rest) :
    Items inGroup cs (ms ++ ns) rest := by
  induction hms with
  | stop => exact hns
  | separator hc h ih => exact .separator hc (ih hns)
  | term ht h ih => exact .term ht (ih hns)
  | group hms h ihms ih => exact .group hms (ih hns)
  | keyword hk h ih => exact .keyword hk (ih hns)

theorem Opened.items {cs mid rest : List Char} {groups : List (List Char)} {ns : List Node}
    (h : Opened cs groups mid) (hns : Items (!groups.isEmpty) mid ns rest) :
    Opened cs groups rest := by
  cases h with
  | row hms => exact .row (hms.append hns)
  | group hcs hms => exact .group hcs (hms.append hns)

theorem Opened.separators {cs seps rest : List Char} {groups : List (List Char)}
    (h : Opened cs groups (seps ++ rest)) (hseps : ∀ c ∈ seps, Separator c) :
    Opened cs groups rest :=
  h.items (items_separators hseps (.stop _ rest))

theorem Opened.close {cs group rest : List Char} {groups : List (List Char)}
    (h : Opened cs (group :: groups) (')' :: rest)) : Opened cs groups rest := by
  cases h with
  | group hcs hms => exact hcs.items (.group hms (.stop _ rest))

end Grammar

section Words

variable {groups : List (List Char)} {c : Char} {name cs rest : List Char}
  {fault : Fault (List Char)}

/-! ## What the readers of words refuse is broken -/

theorem broken_of_readValue (hname : Name Letter name) (h : readValue cs = .error fault) :
    Broken groups (name ++ ':' :: cs) fault := by
  unfold readValue at h
  split at h
  · split at h
    · cases h
    · rename_i hquoted
      cases h
      refine .quote hname fun value rest hq => ?_
      rw [readQuoted?_eq_some_iff.mpr hq] at hquoted
      cases hquoted
  · split at h
    · rename_i hnil
      cases h
      refine .value hname fun c hc hbare => ?_
      obtain ⟨cs, rfl⟩ := List.head?_eq_some_iff.mp (Option.mem_def.mp hc)
      rw [List.takeWhile_cons_of_pos ((isBareChar_iff c).mpr hbare)] at hnil
      cases hnil
    · cases h

theorem broken_of_readTerm (hsep : ¬ Separator c) (hopen : c ≠ '(') (hclose : c ≠ ')')
    (hkeyword : ∀ after, ¬ Keyword (c :: cs) after) (h : readTerm c cs = .error fault) :
    Broken groups (c :: cs) fault := by
  have hread := readTerm_cases c cs
  rw [h] at hread
  obtain ⟨hletter, hfault⟩ | ⟨name, rest, hcs, hname, ⟨hend, hfault⟩ | ⟨after, rfl, hvalue⟩⟩ :=
    hread
  · cases hfault
    exact .property cs hsep hopen hclose hletter
  · cases hfault
    rw [hcs] at hkeyword ⊢
    exact .colon hname hend (.inr hkeyword)
  · rw [hcs]
    cases hv : readValue after with
    | error fault =>
      rw [hv] at hvalue
      cases hvalue
      exact broken_of_readValue hname hv
    | ok found => rw [hv] at hvalue; cases hvalue

theorem broken_of_readWord (h : readWord cs = .error fault) (groups : List (List Char)) :
    ∃ seps rest, cs = seps ++ rest ∧ (∀ c ∈ seps, Separator c) ∧ Broken groups rest fault := by
  obtain ⟨seps, place, rfl, hseps, hread⟩ := readWord_cases cs
  rw [h] at hread
  obtain ⟨-, hend⟩ | ⟨tok, rest, -, hfound⟩ |
    ⟨c, tail, fault, rfl, hsep, hopen, hclose, hkeyword, hterm, hfault⟩ := hread
  · cases hend
  · cases hfound
  · cases hfault
    exact ⟨seps, c :: tail, rfl, hseps, broken_of_readTerm hsep hopen hclose hkeyword hterm⟩

theorem broken_of_keyword (h : Keyword cs rest) :
    Broken [] cs (.expectedColon "or" rest) := by
  obtain ⟨name, rfl, hname, hor, hend⟩ := name_of_keyword h
  rw [← hor]
  exact .colon hname hend (.inl rfl)

/-! ## What is broken the readers of words refuse -/

theorem readValue_of_not_bareChar (h : ∀ c ∈ cs.head?, ¬ BareChar c) :
    readValue cs = .error (.expectedValue cs) := by
  have hnil : cs.takeWhile isBareChar = [] := by
    refine (takeWhile_run isBareChar [] cs (by simp) fun c hc => ?_).1
    rw [Bool.eq_false_iff, ne_eq, isBareChar_iff]
    exact h c hc
  unfold readValue
  split
  · exact absurd ⟨by decide, by decide, by decide⟩ (h '"' rfl)
  · rw [hnil]

theorem readValue_of_not_quoted (h : ∀ value rest, ¬ Quoted cs value rest) :
    readValue ('"' :: cs) = .error (.unclosedQuote ('"' :: cs)) := by
  cases hq : readQuoted? cs with
  | none => simp [readValue, hq]
  | some found => exact absurd (readQuoted?_eq_some_iff.mp hq) (h found.1 found.2)

theorem readWord_of_readTerm (hc : Letter c) (hkeyword : ∀ after, ¬ Keyword (c :: cs) after)
    (h : readTerm c cs = .error fault) : readWord (c :: cs) = .error fault := by
  rw [readWord_of_letter hc, readOr?_eq_none_iff.mpr hkeyword, h]
  rfl

theorem readWord_of_no_colon (hname : Name Letter name)
    (hend : ∀ c ∈ rest.head?, ¬ NameChar c ∧ c ≠ ':')
    (hkeyword : ∀ after, ¬ Keyword (name ++ rest) after) :
    readWord (name ++ rest) =
      .error (.expectedColon (String.ofList (name.map Char.toLower)) rest) := by
  cases name with
  | nil => exact hname.elim
  | cons c name => exact readWord_of_readTerm hname.1 hkeyword (readTerm_of_no_colon hname hend)

theorem readWord_of_readValue (hname : Name Letter name) (h : readValue cs = .error fault) :
    readWord (name ++ ':' :: cs) = .error fault := by
  cases name with
  | nil => exact hname.elim
  | cons c name =>
    have hterm : readTerm c (name ++ ':' :: cs) = .error fault := by
      rw [readTerm_of_colon hname, h]
      rfl
    exact readWord_of_readTerm hname.1 (fun after => not_keyword_of_colon hname) hterm

theorem readWord_of_property (hsep : ¬ Separator c) (hopen : c ≠ '(') (hclose : c ≠ ')')
    (hletter : ¬ Letter c) : readWord (c :: cs) = .error (.expectedProperty c (c :: cs)) := by
  have hor : readOr? (c :: cs) = none := by
    refine readOr?_eq_none_iff.mpr fun after hkeyword => ?_
    obtain ⟨d, tail, htext, hd⟩ := letter_of_keyword hkeyword
    cases htext
    exact hletter hd
  rw [← isSeparator_iff] at hsep
  unfold readWord skipSeparators
  rw [List.dropWhile_cons_of_neg hsep]
  simp only [if_neg hopen, if_neg hclose, hor, readTerm_of_not_letter hletter]
  rfl

end Words

/-! ## From the reader to the grammar -/

theorem broken_of_parseFrom {opens : List OpenGroup} {done : List Node} {text cs : List Char}
    {fault : Fault (List Char)} (hopened : Opened text (opens.map (·.place)) cs)
    (h : parseFrom opens done cs = .error fault) :
    ∃ groups rest, Opened text groups rest ∧ Broken groups rest fault := by
  -- At each step the text is open up to the next word, with the groups on the stack.
  fun_induction parseFrom opens done cs with
  | case1 opens done cs fault' hw =>
    cases h
    obtain ⟨seps, rest, rfl, hseps, hbroken⟩ := broken_of_readWord hw (opens.map (·.place))
    exact ⟨_, rest, hopened.separators hseps, hbroken⟩
  | case2 => cases h
  | case3 done cs hw group opens =>
    cases h
    rw [← List.append_nil cs] at hopened
    exact ⟨_, [], hopened.separators (separator_of_readWord_none hw), .parenthesis _ _⟩
  | case4 opens done cs w hw _ t htok ih =>
    obtain ⟨seps, place, rfl, hseps, hword⟩ := wordText_of_token hw htok
    cases hword with
    | term ht => exact ih ((hopened.separators hseps).items (.term ht (.stop _ _))) h
  | case5 opens done cs w hw _ htok ih =>
    obtain ⟨tok, place, rest⟩ := w
    obtain ⟨seps, rfl, hseps, (hword : WordText tok place rest)⟩ := wordText_of_readWord hw
    cases htok
    cases hword
    exact ih (.group (hopened.separators hseps) (.stop true _)) h
  | case6 done cs w hw _ htok =>
    obtain ⟨tok, place, rest⟩ := w
    obtain ⟨seps, rfl, hseps, (hword : WordText tok place rest)⟩ := wordText_of_readWord hw
    cases htok
    cases hword
    cases h
    exact ⟨[], _, hopened.separators hseps, .closeParen _⟩
  | case7 done cs w hw _ group opens htok ih =>
    rw [List.unattach_reverse, List.unattach_attach] at ih
    obtain ⟨seps, place, rfl, hseps, hword⟩ := wordText_of_token hw htok
    cases hword
    exact ih (hopened.separators hseps).close h
  | case8 done cs w hw _ htok =>
    cases h
    obtain ⟨seps, place, rfl, hseps, hword⟩ := wordText_of_token hw htok
    cases hword with
    | or hk => exact ⟨[], place, hopened.separators hseps, broken_of_keyword hk⟩
  | case9 done cs w hw _ group opens htok ih =>
    obtain ⟨seps, place, rfl, hseps, hword⟩ := wordText_of_token hw htok
    cases hword with
    | or hk => exact ih ((hopened.separators hseps).items (.keyword hk (.stop _ _))) h

/-! ## From the grammar to the reader -/

theorem parseFrom_of_opened {text rest : List Char} {groups : List (List Char)}
    (h : Opened text groups rest) :
    ∃ opens done, opens.map (·.place) = groups ∧
      parseFrom [] [] text = parseFrom opens done rest := by
  induction h with
  | row h => exact ⟨[], _, rfl, parseFrom_items h [] [] (by simp)⟩
  | @group inside rest groups ns h hns ih =>
    obtain ⟨opens, done, rfl, hparse⟩ := ih
    refine ⟨⟨'(' :: inside, done⟩ :: opens, ns.reverse ++ [], rfl, ?_⟩
    rw [hparse, parseFrom_openParen, parseFrom_items hns _ _ (by simp)]

theorem parseFrom_of_broken {groups : List (List Char)} {rest : List Char}
    {fault : Fault (List Char)} (h : Broken groups rest fault) (opens : List OpenGroup)
    (done : List Node) (hopens : opens.map (·.place) = groups) :
    parseFrom opens done rest = .error fault := by
  cases h with
  | property cs hsep hopen hclose hletter =>
    rw [parseFrom_eq, readWord_of_property hsep hopen hclose hletter]
  | @colon _ name rest hname hend hkeyword =>
    -- Outside of a group the keyword is a name without its colon.
    by_cases hk : ∃ after, Keyword (name ++ rest) after
    · obtain ⟨after, hk⟩ := hk
      obtain rfl : groups = [] := hkeyword.resolve_right (fun hno => hno after hk)
      obtain rfl : opens = [] := List.map_eq_nil_iff.mp hopens
      obtain ⟨name', htext, hname', hor, hend'⟩ := name_of_keyword hk
      obtain ⟨rfl, rfl⟩ := name_unique hname (fun c hc => (hend c hc).1) hname'
        (fun c hc => (hend' c hc).1) htext
      rw [parseFrom_eq, readWord_of_wordText (.or hk), hor]
    · rw [parseFrom_eq, readWord_of_no_colon hname hend (fun after hafter => hk ⟨after, hafter⟩)]
  | value hname hend =>
    rw [parseFrom_eq, readWord_of_readValue hname (readValue_of_not_bareChar hend)]
  | quote hname hopen =>
    rw [parseFrom_eq, readWord_of_readValue hname (readValue_of_not_quoted hopen)]
  | parenthesis group groups =>
    obtain ⟨first, opens, rfl, rfl, -⟩ := List.map_eq_cons_iff.mp hopens
    rw [parseFrom_eq]
    rfl
  | closeParen rest =>
    obtain rfl : opens = [] := List.map_eq_nil_iff.mp hopens
    rw [parseFrom_eq, readWord_of_wordText (.closeParen rest)]

/-! ## The faults of a text -/

theorem parseFrom_eq_error_iff {cs : List Char} {fault : Fault (List Char)} :
    parseFrom [] [] cs = .error fault ↔
      ∃ groups rest, Opened cs groups rest ∧ Broken groups rest fault := by
  constructor
  · intro h
    have hstart : Opened cs (([] : List OpenGroup).map (·.place)) cs := .row (.stop false cs)
    exact broken_of_parseFrom hstart h
  · rintro ⟨groups, rest, hopened, hbroken⟩
    obtain ⟨opens, done, hopens, hparse⟩ := parseFrom_of_opened hopened
    rw [hparse, parseFrom_of_broken hbroken opens done hopens]

theorem ne_nil_of_fault {cs : List Char} {fault : Fault (List Char)}
    (h : parseFrom [] [] cs = .error fault) : cs ≠ [] := by
  rintro rfl
  rw [parseFrom_nil] at h
  cases h

/-! ## Places in bytes -/

theorem byteLength_append (cs ds : List Char) :
    byteLength (cs ++ ds) = byteLength cs + byteLength ds := by
  induction cs with
  | nil => simp [byteLength]
  | cons c cs ih => rw [List.cons_append, byteLength, byteLength, ih, Nat.add_assoc]

theorem utf8ByteSize_ofList (cs : List Char) :
    (String.ofList cs).utf8ByteSize = byteLength cs := by
  induction cs with
  | nil => rfl
  | cons c cs ih =>
    rw [byteLength, ← ih, ← List.singleton_append, String.ofList_append,
      String.utf8ByteSize_append, ← String.singleton_eq_ofList, String.utf8ByteSize_singleton]

theorem byteLength_toList (s : String) : byteLength s.toList = s.utf8ByteSize := by
  rw [← utf8ByteSize_ofList, String.ofList_toList]

section Map

variable {P Q R : Type} (f : P → Q) (g : Q → R) (fault : Fault P)

theorem Fault.map_map : (fault.map f).map g = fault.map fun place => g (f place) := by
  cases fault <;> rfl

theorem Fault.place_map : (fault.map f).place = f fault.place := by
  cases fault <;> rfl

theorem Fault.map_congr {f g : P → Q} {fault : Fault P} (h : f fault.place = g fault.place) :
    fault.map f = fault.map g := by
  cases fault <;> exact congrArg _ h

end Map

/-- The place of a fault is told in bytes from the start of the trimmed text. -/
theorem parse_eq_error_iff (s : String) (fault : Error) :
    parse s = .error fault ↔
      ∃ found, parseFrom [] [] (trimChars s.toList) = .error found ∧
        found.map (byteLength (trimChars s.toList) - byteLength ·) = fault := by
  simp only [parse]
  cases parseFrom [] [] (trimChars s.toList) <;> simp

end CalendarRules.Query
