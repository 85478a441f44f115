import CalendarRules.Proofs.Query.Parsing
import CalendarRules.Proofs.Text.Trim
import CalendarRules.Query.Render

/-!
# The canonical text of a query is read back as that query

The text of a node derives the node in front of any text that ends a value. So the whole text
derives the query, provided that its properties are names in lower case. What is read has only
such properties.
-/

namespace CalendarRules.Query

open Text Grammar

/-! ## Names in lower case -/

/-- The properties are names in lower case. -/
def NamedTerms (ts : List Term) : Prop := ∀ t ∈ ts, Name LowerLetter t.property.toList

theorem namedTerms_append (ts us : List Term) :
    NamedTerms (ts ++ us) ↔ NamedTerms ts ∧ NamedTerms us := by
  simp [NamedTerms, or_imp, forall_and]

theorem namedTerms_singleton (t : Term) :
    NamedTerms [t] ↔ Name LowerLetter t.property.toList := by
  simp [NamedTerms]

theorem namedTerms_membersTerms {ns : List Node} (h : ∀ n ∈ ns, NamedTerms n.terms) :
    NamedTerms (Node.membersTerms ns) := by
  intro t ht
  obtain ⟨n, hn, ht⟩ := Node.mem_membersTerms.mp ht
  exact h n hn t ht

theorem letter_of_lowerName {cs : List Char} (h : Name LowerLetter cs) : Name Letter cs := by
  cases cs with
  | nil => exact h
  | cons c cs => exact ⟨.inl h.1, fun d hd => (h.2 d hd).imp_left .inl⟩

theorem lowerName_map_toLower {cs : List Char} (h : Name Letter cs) :
    Name LowerLetter (cs.map Char.toLower) := by
  cases cs with
  | nil => exact h
  | cons c cs =>
    refine ⟨lowerLetter_toLower h.1, ?_⟩
    intro d hd
    obtain ⟨e, he, rfl⟩ := List.mem_map.mp hd
    rcases h.2 e he with hl | hd | rfl
    · exact .inl (lowerLetter_toLower hl)
    · rw [toLower_of_digit hd]
      exact .inr (.inl hd)
    · exact .inr (.inr rfl)

theorem map_toLower_of_lowerName {cs : List Char} (h : Name LowerLetter cs) :
    cs.map Char.toLower = cs := by
  cases cs with
  | nil => rfl
  | cons c cs =>
    rw [List.map_congr_left (g := id), List.map_id]
    intro d hd
    rcases List.mem_cons.mp hd with rfl | hd
    · exact toLower_of_lowerLetter h.1
    · rcases h.2 d hd with hl | hdig | rfl
      · exact toLower_of_lowerLetter hl
      · exact toLower_of_digit hdig
      · rfl

theorem namedTerms_of_items {inGroup : Bool} {cs rest : List Char} {ns : List Node}
    (h : Items inGroup cs ns rest) : NamedTerms (Node.membersTerms ns) := by
  induction h with
  | stop => simp [Node.membersTerms, NamedTerms]
  | separator hc h ih => exact ih
  | term ht h ih =>
    obtain ⟨hname, hvalue⟩ := ht
    rw [Node.membersTerms, Node.terms, namedTerms_append, namedTerms_singleton]
    refine ⟨?_, ih⟩
    rw [String.toList_ofList]
    exact lowerName_map_toLower hname
  | group hms h ihms ih =>
    rw [Node.membersTerms, Node.terms, namedTerms_append]
    exact ⟨ihms, ih⟩
  | keyword hk h ih => exact ih

/-! ## The text of a term -/

theorem quoted_escape (value rest : List Char) :
    Quoted (value.flatMap Term.escape ++ '"' :: rest) value rest := by
  induction value with
  | nil => exact .close rest
  | cons c value ih =>
    rw [List.flatMap_cons, List.append_assoc]
    unfold Term.escape
    split
    · exact .escape c ih
    · rename_i hc
      simp only [Bool.or_eq_true, decide_eq_true_eq, not_or] at hc
      exact .plain hc.1 hc.2 ih

theorem bareChar_of_not_needsQuotes {c : Char} (h : Term.needsQuotes c = false) :
    BareChar c ∧ c ≠ '"' ∧ isBlank c = false := by
  simp only [Term.needsQuotes, Bool.or_eq_false_iff, beq_eq_false_iff_ne] at h
  obtain ⟨⟨⟨⟨hblank, hopen⟩, hclose⟩, hquote⟩, -⟩ := h
  refine ⟨⟨?_, hopen, hclose⟩, hquote, hblank⟩
  intro hsep
  rw [isBlank_of_isSeparator c ((isSeparator_iff c).mpr hsep)] at hblank
  cases hblank

/-- A text that a value without quotes does not go on into. -/
def EndsValue (rest : List Char) : Prop := ∀ c ∈ rest.head?, ¬ BareChar c

theorem endsValue_nil : EndsValue [] := by simp [EndsValue]

theorem endsValue_space (cs : List Char) : EndsValue (' ' :: cs) := by
  simp [EndsValue, BareChar, Separator]

theorem endsValue_closeParen (cs : List Char) : EndsValue (')' :: cs) := by
  simp [EndsValue, BareChar]

theorem renderValue_cases (value : List Char) :
    Term.renderValue value = '"' :: (value.flatMap Term.escape ++ ['"']) ∨
      (Term.renderValue value = value ∧ value ≠ [] ∧
        ∀ c ∈ value, Term.needsQuotes c = false) := by
  unfold Term.renderValue
  split
  · exact .inl rfl
  · rename_i hv
    simp only [Bool.or_eq_true, not_or, List.isEmpty_iff, Bool.not_eq_true, List.any_eq_false] at hv
    exact .inr ⟨rfl, hv.1, hv.2⟩

theorem value_render (value : List Char) {rest : List Char} (hrest : EndsValue rest) :
    Value (Term.renderValue value ++ rest) value rest := by
  obtain hquoted | ⟨hbare, hne, hchars⟩ := renderValue_cases value
  · have h := Value.quoted (quoted_escape value rest)
    rw [hquoted]
    simpa using h
  · have hchars (c : Char) (hc : c ∈ value) := bareChar_of_not_needsQuotes (hchars c hc)
    rw [hbare]
    refine .bare hne ?_ (fun c hc => (hchars c hc).1) hrest
    intro hq
    exact (hchars '"' (List.mem_of_head? hq)).2.1 rfl

theorem termText_render {t : Term} {rest : List Char}
    (ht : Name LowerLetter t.property.toList) (hrest : EndsValue rest) :
    TermText (t.render ++ rest) t rest := by
  have h := TermText.intro (letter_of_lowerName ht) (value_render t.value.toList hrest)
  rw [map_toLower_of_lowerName ht, String.ofList_toList, String.ofList_toList] at h
  simpa [Term.render] using h

/-! ## The text of a node -/

theorem items_or {cs rest : List Char} {ns : List Node} (h : Items true cs ns rest) :
    Items true (' ' :: 'O' :: 'R' :: ' ' :: cs) ns rest := by
  have hk : Keyword ('O' :: 'R' :: ' ' :: cs) (' ' :: cs) :=
    .intro (.inr rfl) (.inr rfl) (by simp [Separator])
  exact .separator (.inl rfl) (.keyword hk (.separator (.inl rfl) h))

theorem renderMembers_cons_cons (m n : Node) (ms : List Node) :
    Node.renderMembers (m :: n :: ms) =
      m.render ++ ' ' :: 'O' :: 'R' :: ' ' :: Node.renderMembers (n :: ms) := by
  rw [Node.renderMembers, List.append_assoc]
  · rfl
  · simp

mutual

theorem items_render {inGroup : Bool} {rest tail : List Char} {ns : List Node}
    (hrest : EndsValue rest) (h : Items inGroup rest ns tail) :
    (n : Node) → NamedTerms n.terms → Items inGroup (n.render ++ rest) (n :: ns) tail
  | .term t, ht => by
    rw [Node.terms, namedTerms_singleton] at ht
    exact .term (termText_render ht hrest) h
  | .anyOf ms, hms => by
    have hmembers := items_renderMembers rest ms hms
    simpa [Node.render] using Items.group hmembers h

theorem items_renderMembers (after : List Char) :
    (ms : List Node) → NamedTerms (Node.membersTerms ms) →
      Items true (Node.renderMembers ms ++ ')' :: after) ms (')' :: after)
  | [], _ => .stop true _
  | [m], h => by
    rw [Node.membersTerms, namedTerms_append] at h
    exact items_render (endsValue_closeParen after) (.stop true _) m h.1
  | m :: n :: ms, h => by
    rw [Node.membersTerms, namedTerms_append] at h
    have hms := items_renderMembers after (n :: ms) h.2
    rw [renderMembers_cons_cons, List.append_assoc]
    exact items_render (endsValue_space _) (items_or hms) m h.1

end

theorem items_renderItems (ns : List Node) (h : NamedTerms (Node.membersTerms ns)) :
    Items false (renderItems ns) ns [] := by
  induction ns with
  | nil => exact .stop false []
  | cons n ns ih =>
    rw [Node.membersTerms, namedTerms_append] at h
    cases ns with
    | nil => simpa [renderItems] using items_render endsValue_nil (.stop false []) n h.1
    | cons m ns => exact items_render (endsValue_space _) (.separator (.inl rfl) (ih h.2)) n h.1

/-! ## Blanks around the text -/

/-- The text starts and ends with characters that are not blank. -/
structure Solid (cs : List Char) : Prop where
  head : ∃ c, cs.head? = some c ∧ isBlank c = false
  last : ∃ c, cs.getLast? = some c ∧ isBlank c = false

theorem Solid.append {cs ds : List Char} (hc : Solid cs) (hd : Solid ds) (mid : List Char) :
    Solid (cs ++ (mid ++ ds)) := by
  obtain ⟨c, hc, hcb⟩ := hc.head
  obtain ⟨d, hd, hdb⟩ := hd.last
  exact ⟨⟨c, by simp [hc], hcb⟩, ⟨d, by simp [hd], hdb⟩⟩

theorem trimChars_of_solid {cs : List Char} (h : Solid cs) : trimChars cs = cs := by
  obtain ⟨⟨c, hc, hcb⟩, ⟨d, hd, hdb⟩⟩ := h
  have hne : cs ≠ [] := by
    rintro rfl
    simp at hc
  have hnone : ∀ c ∈ ([] : List Char), isBlank c = true := by simp
  have htrim := trimChars_around hnone hnone hne (by simpa [hc] using hcb) (by simpa [hd] using hdb)
  simpa using htrim

theorem solid_trimChars {cs : List Char} (h : trimChars cs ≠ []) : Solid (trimChars cs) := by
  have hlast (c : Char) (hc : c ∈ (trimChars cs).getLast?) : isBlank c = false := by
    rw [trimChars, trimEndChars, List.getLast?_reverse] at hc
    exact of_mem_head?_dropWhile hc
  have hhead (c : Char) (hc : c ∈ (trimChars cs).head?) : isBlank c = false := by
    obtain ⟨blanks, hsplit⟩ : ∃ blanks, trimStartChars cs = trimChars cs ++ blanks := by
      refine ⟨((trimStartChars cs).reverse.takeWhile isBlank).reverse, ?_⟩
      rw [trimChars, trimEndChars, ← List.reverse_append, List.takeWhile_append_dropWhile,
        List.reverse_reverse]
    have hstart : c ∈ (trimStartChars cs).head? := by
      rw [hsplit, List.head?_append_of_ne_nil _ h]
      exact hc
    exact of_mem_head?_dropWhile hstart
  exact ⟨⟨_, List.head?_eq_some_head h, hhead _ (List.head?_eq_some_head h)⟩,
    ⟨_, List.getLast?_eq_some_getLast h, hlast _ (List.getLast?_eq_some_getLast h)⟩⟩

theorem Solid.withEnd {cs ds es : List Char} (h : Solid (cs ++ ds)) (hcs : cs ≠ [])
    (hlast : ∃ c, es.getLast? = some c ∧ isBlank c = false) : Solid (cs ++ es) := by
  obtain ⟨c, hc, hcb⟩ := h.head
  obtain ⟨d, hd, hdb⟩ := hlast
  rw [List.head?_append_of_ne_nil _ hcs] at hc
  exact ⟨⟨c, by simp [hc], hcb⟩, ⟨d, by simp [hd], hdb⟩⟩

theorem isBlank_of_lowerLetter {c : Char} (h : LowerLetter c) : isBlank c = false := by
  rw [lowerLetter_iff] at h
  simp only [isBlank, Bool.or_eq_false_iff, Bool.and_eq_false_iff, decide_eq_false_iff_not,
    beq_eq_false_iff_ne]
  omega

theorem solid_term {t : Term} (ht : Name LowerLetter t.property.toList) : Solid t.render := by
  unfold Term.render
  constructor
  · cases hp : t.property.toList with
    | nil => rw [hp] at ht; exact ht.elim
    | cons c cs =>
      rw [hp] at ht
      exact ⟨c, rfl, isBlank_of_lowerLetter ht.1⟩
  · obtain hquoted | ⟨hbare, hne, hchars⟩ := renderValue_cases t.value.toList
    · rw [hquoted]
      exact ⟨'"', by simp [List.getLast?_cons], by decide⟩
    · rw [hbare]
      refine ⟨t.value.toList.getLast hne,
        by simp [List.getLast?_cons, List.getLast?_eq_some_getLast hne], ?_⟩
      exact (bareChar_of_not_needsQuotes (hchars _ (List.getLast_mem hne))).2.2

theorem solid_node {n : Node} (hn : NamedTerms n.terms) : Solid n.render := by
  cases n with
  | term t =>
    rw [Node.terms, namedTerms_singleton] at hn
    exact solid_term hn
  | anyOf ms =>
    rw [Node.render]
    exact ⟨⟨'(', rfl, by decide⟩, ⟨')', by simp [List.getLast?_cons], by decide⟩⟩

theorem solid_renderItems {n : Node} {ns : List Node}
    (h : NamedTerms (Node.membersTerms (n :: ns))) : Solid (renderItems (n :: ns)) := by
  induction ns generalizing n with
  | nil =>
    rw [Node.membersTerms, namedTerms_append] at h
    exact solid_node h.1
  | cons m ns ih =>
    rw [Node.membersTerms, namedTerms_append] at h
    exact (solid_node h.1).append (ih h.2) [' ']

theorem trimChars_render {q : Query} (hq : NamedTerms q.terms) : trimChars q.render = q.render := by
  unfold Query.render
  cases hi : q.items with
  | nil => rfl
  | cons n ns =>
    rw [Query.terms, hi] at hq
    exact trimChars_of_solid (solid_renderItems hq)

/-! ## The round trip -/

theorem namedTerms_of_parse {s : String} {q : Query} (h : parse s = .ok q) : NamedTerms q.terms :=
  namedTerms_of_items ((parse_eq_ok_iff s q).mp h)

theorem parse_toText {q : Query} (hq : NamedTerms q.terms) : parse q.toText = .ok q := by
  rw [parse_eq_ok_iff, Query.toText, String.toList_ofList, trimChars_render hq]
  exact items_renderItems q.items hq

/-- A query is read back from its text exactly when its properties are names in lower case. Every
query that is read is one of these, so its text is read as that query, has itself as its canonical
text, and is the text of no other query that is read. -/
theorem parse_toText_iff :
    (∀ q : Query, parse q.toText = .ok q ↔ ∀ t ∈ q.terms, Name LowerLetter t.property.toList) ∧
      (∀ s q, parse s = .ok q →
        (∀ t ∈ q.terms, Name LowerLetter t.property.toList) ∧ parse q.toText = .ok q ∧
          (parse q.toText).map Query.toText = .ok q.toText) ∧
      ∀ s q s' q', parse s = .ok q → parse s' = .ok q' → q.toText = q'.toText → q = q' := by
  refine ⟨?_, ?_, ?_⟩
  · intro q
    exact ⟨namedTerms_of_parse, parse_toText⟩
  · intro s q h
    have hq := namedTerms_of_parse h
    have hp := parse_toText hq
    exact ⟨hq, hp, by rw [hp]; rfl⟩
  · intro s q s' q' h h' htext
    have hp := parse_toText (namedTerms_of_parse h)
    rw [htext, parse_toText (namedTerms_of_parse h')] at hp
    cases hp
    rfl

/-- Two spellings of one query: a capital letter and needless quotes do not reach its text. -/
theorem parse_toText_spellings :
    (parse " A:\"x y\"(or b:c)" = .ok ⟨[.term ⟨"a", "x y"⟩, .anyOf [.term ⟨"b", "c"⟩]]⟩ ∧
      (parse (Query.toText ⟨[.term ⟨"a", "x y"⟩, .anyOf [.term ⟨"b", "c"⟩]]⟩)).map Query.toText =
        .ok (Query.toText ⟨[.term ⟨"a", "x y"⟩, .anyOf [.term ⟨"b", "c"⟩]]⟩)) ∧
      parse "a:\"b\"" = .ok ⟨[.term ⟨"a", "b"⟩]⟩ ∧ parse "A:b" = .ok ⟨[.term ⟨"a", "b"⟩]⟩ ∧
        (⟨[.term ⟨"a", "b"⟩]⟩ : Query) = ⟨[.term ⟨"a", "b"⟩]⟩ := by
  have hquoted : parse "a:\"b\"" = .ok ⟨[.term ⟨"a", "b"⟩]⟩ := by cbv
  have hbare : parse "A:b" = .ok ⟨[.term ⟨"a", "b"⟩]⟩ := by cbv
  have hgroup : parse " A:\"x y\"(or b:c)" =
      .ok ⟨[.term ⟨"a", "x y"⟩, .anyOf [.term ⟨"b", "c"⟩]]⟩ := by cbv
  exact ⟨⟨hgroup, (parse_toText_iff.2.1 _ _ hgroup).2.2⟩, hquoted, hbare,
    parse_toText_iff.2.2 _ _ _ _ hquoted hbare rfl⟩

end CalendarRules.Query
