import CalendarRules.Proofs.Query.Faults

/-!
# A text that goes on in another way

What was read of a text is read in the same way when the text after it changes, as long as the last
word ends where it did. Each relation of the grammar has a statement of this, and an open row can
always be completed to a query.
-/

namespace CalendarRules.Query.Grammar

/-- This text can take the place of the rest: it starts like the rest, or it ends the word in front
of it. -/
def Continues (rest text : List Char) : Prop :=
  ∀ c ∈ text.head?, c ∈ rest.head? ∨ Separator c ∨ c = ')'

theorem Continues.append {rest text : List Char} (h : Continues rest text) (read : List Char) :
    Continues (read ++ rest) (read ++ text) := by
  cases read with
  | nil => exact h
  | cons c read => exact fun d hd => .inl hd

theorem continues_append {rest : List Char} (h : rest ≠ []) (text : List Char) :
    Continues rest (rest ++ text) := by
  obtain ⟨c, cs, rfl⟩ := List.exists_cons_of_ne_nil h
  exact fun d hd => .inl hd

/-! ## Words -/

theorem Quoted.goesOn {cs value rest : List Char} (h : Quoted cs value rest) :
    ∃ read, cs = read ++ rest ∧ ∀ text, Quoted (read ++ text) value text := by
  induction h with
  | close rest => exact ⟨['"'], rfl, .close⟩
  | escape c h ih =>
    obtain ⟨read, rfl, hread⟩ := ih
    exact ⟨'\\' :: c :: read, rfl, fun text => .escape c (hread text)⟩
  | @plain c cs value rest hq hb h ih =>
    obtain ⟨read, rfl, hread⟩ := ih
    exact ⟨c :: read, rfl, fun text => .plain hq hb (hread text)⟩

theorem not_bareChar_of_continues {rest text : List Char} (h : Continues rest text)
    (hrest : ∀ c ∈ rest.head?, ¬ BareChar c) : ∀ c ∈ text.head?, ¬ BareChar c := by
  intro c hc hbare
  rcases h c hc with hc | hsep | rfl
  · exact hrest c hc hbare
  · exact hbare.1 hsep
  · exact hbare.2.2 rfl

theorem Value.goesOn {cs value rest : List Char} (h : Value cs value rest) :
    ∃ read, cs = read ++ rest ∧ ∀ text, Continues rest text → Value (read ++ text) value text := by
  cases h with
  | quoted h =>
    obtain ⟨read, rfl, hread⟩ := h.goesOn
    exact ⟨'"' :: read, rfl, fun text _ => .quoted (hread text)⟩
  | bare hne hstart hbare hend =>
    exact ⟨value, rfl, fun text h => .bare hne hstart hbare (not_bareChar_of_continues h hend)⟩

theorem TermText.goesOn {cs rest : List Char} {t : Term} (h : TermText cs t rest) :
    ∃ read, cs = read ++ rest ∧ ∀ text, Continues rest text → TermText (read ++ text) t text := by
  obtain ⟨hname, hvalue⟩ := h
  rename_i name cs value
  obtain ⟨read, rfl, hread⟩ := hvalue.goesOn
  refine ⟨name ++ ':' :: read, by simp, fun text h => ?_⟩
  simpa using TermText.intro hname (hread text h)

theorem Keyword.goesOn {cs rest : List Char} (h : Keyword cs rest) :
    ∃ read, cs = read ++ rest ∧ ∀ text, Continues rest text → Keyword (read ++ text) text := by
  obtain ⟨ho, hr, hend⟩ := h
  rename_i o r
  refine ⟨[o, r], rfl, fun text h => .intro ho hr fun c hc => ?_⟩
  rcases h c hc with hc | hsep | rfl
  · exact hend c hc
  · exact .inl hsep
  · exact .inr rfl

/-! ## Rows and open groups -/

theorem Items.goesOn {inGroup : Bool} {cs rest : List Char} {ns : List Node}
    (h : Items inGroup cs ns rest) :
    ∃ read, cs = read ++ rest ∧
      ∀ text, Continues rest text → Items inGroup (read ++ text) ns text := by
  induction h with
  | stop inGroup rest => exact ⟨[], rfl, fun text _ => .stop inGroup text⟩
  | @separator _ c _ _ _ hc h ih =>
    obtain ⟨read, rfl, hread⟩ := ih
    exact ⟨c :: read, rfl, fun text h => .separator hc (hread text h)⟩
  | term ht h ih =>
    obtain ⟨read, rfl, hread⟩ := ih
    obtain ⟨word, rfl, hword⟩ := ht.goesOn
    refine ⟨word ++ read, by simp, fun text h => ?_⟩
    rw [List.append_assoc]
    exact .term (hword _ (h.append read)) (hread text h)
  | group hms h ihms ih =>
    obtain ⟨read, rfl, hread⟩ := ih
    obtain ⟨inside, rfl, hinside⟩ := ihms
    refine ⟨'(' :: (inside ++ ')' :: read), by simp, fun text h => ?_⟩
    rw [List.cons_append, List.append_assoc]
    exact .group (hinside _ (fun c hc => .inl hc)) (hread text h)
  | keyword hk h ih =>
    obtain ⟨read, rfl, hread⟩ := ih
    obtain ⟨word, rfl, hword⟩ := hk.goesOn
    refine ⟨word ++ read, by simp, fun text h => ?_⟩
    rw [List.append_assoc]
    exact .keyword (hword _ (h.append read)) (hread text h)

theorem Opened.goesOn {cs rest : List Char} {groups : List (List Char)}
    (h : Opened cs groups rest) :
    ∃ read, cs = read ++ rest ∧ ∀ text, Continues rest text →
      ∃ groups', groups'.length = groups.length ∧ Opened (read ++ text) groups' text := by
  induction h with
  | row h =>
    obtain ⟨read, rfl, hread⟩ := h.goesOn
    exact ⟨read, rfl, fun text h => ⟨[], rfl, .row (hread text h)⟩⟩
  | group h hns ih =>
    obtain ⟨inside, rfl, hinside⟩ := hns.goesOn
    obtain ⟨read, rfl, hread⟩ := ih
    refine ⟨read ++ '(' :: inside, by simp, fun text h => ?_⟩
    obtain ⟨groups, hlength, hopened⟩ := hread ('(' :: (inside ++ text)) (fun c hc => .inl hc)
    rw [List.append_assoc, List.cons_append]
    exact ⟨_, by rw [List.length_cons, List.length_cons, hlength],
      .group hopened (hinside text h)⟩

theorem Opened.after {cs mid rest : List Char} {groups : List (List Char)} {ns : List Node}
    (hns : Items false cs ns mid) (h : Opened mid groups rest) : Opened cs groups rest := by
  induction h with
  | row h => exact .row (hns.append h)
  | group h hns ih => exact .group ih hns

/-! ## Completions -/

/-- Closes so many groups, and has a term after them. -/
def completion (groups : List (List Char)) : List Char :=
  List.replicate groups.length ')' ++ [' ', 'x', ':', 'x']

theorem items_of_completion {cs : List Char} {groups : List (List Char)}
    (h : Opened cs groups (completion groups)) : ∃ ns, Items false cs ns [] := by
  induction groups with
  | nil =>
    cases h with
    | row h =>
      have hname : Name Letter ['x'] := by simp [Name, Letter, LowerLetter]
      have hvalue : Value (['x'] ++ []) ['x'] [] :=
        .bare (by simp) (by simp) (by simp [BareChar, Separator]) (by simp)
      have hterm : TermText ['x', ':', 'x'] ⟨"x", "x"⟩ [] := .intro hname hvalue
      exact ⟨_, h.append (.separator (.inl rfl) (.term hterm (.stop false [])))⟩
  | cons group groups ih => exact ih h.close

theorem getLast?_completion (word : List Char) (groups : List (List Char)) :
    (word ++ completion groups).getLast? = some 'x' := by
  simp [completion]

theorem Opened.complete_word {cs rest word : List Char} {groups : List (List Char)}
    {ns : List Node} (h : Opened cs groups rest)
    (hns : Items (!groups.isEmpty) (word ++ completion groups) ns (completion groups))
    (hcontinues : Continues rest (word ++ completion groups)) :
    ∃ read ms, cs = read ++ rest ∧ Items false (read ++ (word ++ completion groups)) ms [] := by
  obtain ⟨read, rfl, hread⟩ := h.goesOn
  obtain ⟨groups', hlength, hopened⟩ := hread _ hcontinues
  have hisEmpty : groups'.isEmpty = groups.isEmpty := by
    cases groups' <;> cases groups <;> simp_all
  have hcompletion : completion groups' = completion groups := by
    rw [completion, completion, hlength]
  rw [← hisEmpty, ← hcompletion] at hns
  rw [← hcompletion] at hopened ⊢
  obtain ⟨ms, hms⟩ := items_of_completion (hopened.items hns)
  exact ⟨read, ms, rfl, hms⟩

theorem Opened.complete {cs rest : List Char} {groups : List (List Char)}
    (h : Opened cs groups rest) :
    ∃ read ms, cs = read ++ rest ∧ Items false (read ++ completion groups) ms [] := by
  have hstop : Items (!groups.isEmpty) ([] ++ completion groups) [] (completion groups) :=
    .stop _ _
  refine h.complete_word hstop ?_
  cases groups <;> simp [Continues, completion, Separator, List.replicate_succ]

theorem Opened.complete_name {cs name rest : List Char} {groups : List (List Char)}
    (h : Opened cs groups (name ++ rest)) (hname : Name Letter name) :
    ∃ read ms, cs = read ++ name ++ rest ∧
      Items false (read ++ name ++ ([':', 'x'] ++ completion groups)) ms [] := by
  have hend : ∀ c ∈ (completion groups).head?, ¬ BareChar c := by
    cases groups <;> simp [completion, BareChar, Separator, List.replicate_succ]
  have hvalue : Value (['x'] ++ completion groups) ['x'] (completion groups) :=
    .bare (by simp) (by simp) (by simp [BareChar, Separator]) hend
  have hcontinues : Continues (name ++ rest) ((name ++ [':', 'x']) ++ completion groups) := by
    cases name with
    | nil => exact hname.elim
    | cons c name => exact fun d hd => .inl hd
  have htext : name ++ ':' :: (['x'] ++ completion groups) =
      (name ++ [':', 'x']) ++ completion groups := by simp
  have hterm := TermText.intro hname hvalue
  rw [htext] at hterm
  obtain ⟨read, ms, hcs, hms⟩ := h.complete_word (.term hterm (.stop _ _)) hcontinues
  exact ⟨read, ms, by simp [hcs], by simpa using hms⟩

theorem Opened.complete_value {cs name rest : List Char} {groups : List (List Char)}
    (h : Opened cs groups (name ++ ':' :: rest)) (hname : Name Letter name) :
    ∃ read ms, cs = read ++ name ++ [':'] ++ rest ∧
      Items false (read ++ name ++ [':'] ++ (['x'] ++ completion groups)) ms [] := by
  obtain ⟨read, ms, hcs, hms⟩ := h.complete_name hname
  exact ⟨read, ms, by simp [hcs], by simpa using hms⟩

end CalendarRules.Query.Grammar
