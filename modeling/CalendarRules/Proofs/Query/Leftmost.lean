import CalendarRules.Proofs.Query.Continuation
import CalendarRules.Proofs.Query.RoundTrip

/-!
# A fault stands at the leftmost place where the text is no query

The text up to the place of a fault can be completed to a query. With the character at the place it
cannot, whatever comes after, unless the fault is that something is never closed.
-/

namespace CalendarRules.Query

open Text Grammar

/-! ## What a fault points at -/

/-- Something is never closed, and that can still come. -/
def Fault.isUnclosed {P : Type} : Fault P → Bool
  | .unclosedQuote _ | .unclosedParenthesis _ => true
  | _ => false

/-- What stands in front of the place of a fault and behind it. -/
def Fault.Points {P : Type} (before after : List Char) : Fault P → Prop
  | .expectedProperty found _ => after.head? = some found
  | .expectedColon property _ => after.head? ≠ some ':' ∧
      ∃ front name, before = front ++ name ∧ Name Letter name ∧
        property = String.ofList (name.map Char.toLower)
  | .expectedValue _ => before.getLast? = some ':' ∧
      ∀ c ∈ after.head?, Separator c ∨ c = '(' ∨ c = ')'
  | .unclosedQuote _ => before.getLast? = some ':' ∧
      ∃ cs, after = '"' :: cs ∧ ∀ value rest, ¬ Quoted cs value rest
  | .unclosedParenthesis _ => after.head? = some '(' ∧
      ∃ groups, Opened (before ++ after) (after :: groups) []
  | .unexpectedCloseParen _ => after.head? = some ')'

section Map

variable {P Q : Type} (f : P → Q) (fault : Fault P)

theorem Fault.isUnclosed_map : (fault.map f).isUnclosed = fault.isUnclosed := by
  cases fault <;> rfl

theorem Fault.points_map (before after : List Char) :
    (fault.map f).Points before after ↔ fault.Points before after := by
  cases fault <;> exact Iff.rfl

end Map

theorem points_of_broken {text rest : List Char} {groups : List (List Char)}
    {fault : Fault (List Char)} (hopened : Opened text groups rest)
    (hbroken : Broken groups rest fault) :
    ∃ before more ns, text = before ++ fault.place ∧ fault.Points before fault.place ∧
      more.getLast? = some 'x' ∧ Items false (before ++ more) ns [] := by
  cases hbroken with
  | property cs hsep hopen hclose hletter =>
    obtain ⟨read, ns, rfl, hns⟩ := hopened.complete
    exact ⟨read, _, ns, rfl, rfl, getLast?_completion [] groups, hns⟩
  | @colon _ name rest hname hend hkeyword =>
    obtain ⟨read, ns, rfl, hns⟩ := hopened.complete_name hname
    have hcolon : rest.head? ≠ some ':' := fun hcolon => (hend ':' hcolon).2 rfl
    exact ⟨read ++ name, _, ns, rfl, ⟨hcolon, read, name, rfl, hname, rfl⟩,
      getLast?_completion _ groups, hns⟩
  | @value _ name rest hname hend =>
    obtain ⟨read, ns, rfl, hns⟩ := hopened.complete_value hname
    have hstop : ∀ c ∈ rest.head?, Separator c ∨ c = '(' ∨ c = ')' := by
      intro c hc
      have hbare := hend c hc
      unfold BareChar at hbare
      tauto
    exact ⟨read ++ name ++ [':'], _, ns, rfl, ⟨by simp, hstop⟩, getLast?_completion _ groups, hns⟩
  | @quote _ name cs hname hopen =>
    obtain ⟨read, ns, rfl, hns⟩ := hopened.complete_value hname
    exact ⟨read ++ name ++ [':'], _, ns, rfl, ⟨by simp, cs, rfl, hopen⟩,
      getLast?_completion _ groups, hns⟩
  | parenthesis group groups =>
    -- The group is open in front of what it holds, so its parenthesis can as well be left out.
    cases hopened with
    | group h hns =>
      obtain ⟨read, ms, rfl, hms⟩ := h.complete
      exact ⟨read, _, ms, rfl, ⟨rfl, groups, .group h hns⟩, getLast?_completion [] groups, hms⟩
  | closeParen rest =>
    obtain ⟨read, ns, rfl, hns⟩ := hopened.complete
    exact ⟨read, _, ns, rfl, rfl, getLast?_completion [] [], hns⟩

/-! ## A text that goes on after a fault -/

theorem keyword_of_append {name rest more after : List Char} (hname : Name Letter name)
    (hend : ∀ c ∈ rest.head?, ¬ NameChar c) (hrest : rest ≠ [])
    (h : Keyword (name ++ (rest ++ more)) after) : Keyword (name ++ rest) rest := by
  have hhead : (rest ++ more).head? = rest.head? := List.head?_append_of_ne_nil _ hrest
  have hend : ∀ c ∈ (rest ++ more).head?, ¬ NameChar c := hhead ▸ hend
  obtain ⟨name', htext, hname', -, hend'⟩ := name_of_keyword h
  obtain ⟨rfl, rfl⟩ := name_unique hname hend hname' (fun c hc => (hend' c hc).1) htext
  obtain ⟨read, hread, hgoesOn⟩ := h.goesOn
  rw [List.append_cancel_right hread]
  exact hgoesOn rest (fun c hc => .inl (hhead ▸ hc))

theorem broken_append {groups groups' : List (List Char)} {rest : List Char}
    {fault : Fault (List Char)} (h : Broken groups rest fault)
    (hunclosed : fault.isUnclosed = false) (hplace : fault.place ≠ [])
    (hlength : groups'.length = groups.length) (more : List Char) :
    Broken groups' (rest ++ more) (fault.map (· ++ more)) := by
  have hempty (hgroups : groups = []) : groups' = [] := by
    rw [hgroups] at hlength
    exact List.eq_nil_of_length_eq_zero hlength
  cases h with
  | property cs hsep hopen hclose hletter => exact .property (cs ++ more) hsep hopen hclose hletter
  | @colon _ name rest hname hend hkeyword =>
    have hhead : (rest ++ more).head? = rest.head? := List.head?_append_of_ne_nil _ hplace
    rw [List.append_assoc]
    refine .colon hname (hhead ▸ hend) (hkeyword.imp hempty fun hno after hk => ?_)
    exact hno rest (keyword_of_append hname (fun c hc => (hend c hc).1) hplace hk)
  | @value _ name rest hname hend =>
    have hhead : (rest ++ more).head? = rest.head? := List.head?_append_of_ne_nil _ hplace
    rw [List.append_assoc]
    exact .value hname (hhead ▸ hend)
  | quote => cases hunclosed
  | parenthesis => cases hunclosed
  | closeParen rest =>
    rw [hempty rfl]
    exact .closeParen (rest ++ more)

theorem rest_ne_nil_of_broken {groups : List (List Char)} {rest : List Char}
    {fault : Fault (List Char)} (h : Broken groups rest fault)
    (hunclosed : fault.isUnclosed = false) : rest ≠ [] := by
  cases h with
  | @colon _ name rest hname hend hkeyword =>
    cases name with
    | nil => exact hname.elim
    | cons c name => simp
  | parenthesis => cases hunclosed
  | _ => simp

theorem parseFrom_append {text : List Char} {fault : Fault (List Char)}
    (h : parseFrom [] [] text = .error fault) (hunclosed : fault.isUnclosed = false)
    (hplace : fault.place ≠ []) (more : List Char) :
    parseFrom [] [] (text ++ more) = .error (fault.map (· ++ more)) := by
  obtain ⟨groups, rest, hopened, hbroken⟩ := parseFrom_eq_error_iff.mp h
  obtain ⟨read, rfl, hread⟩ := hopened.goesOn
  obtain ⟨groups', hlength, hopened'⟩ :=
    hread _ (continues_append (rest_ne_nil_of_broken hbroken hunclosed) more)
  rw [List.append_assoc]
  exact parseFrom_eq_error_iff.mpr
    ⟨groups', _, hopened', broken_append hbroken hunclosed hplace hlength more⟩

/-! ## The theorem -/

theorem trimChars_trim_append {s more : String} (hne : trimChars s.toList ≠ [])
    (hmore : ∀ c ∈ more.toList.getLast?, isBlank c = false) :
    trimChars (trim s ++ more).toList = trimChars s.toList ++ more.toList := by
  have htrimmed := solid_trimChars hne
  have hsolid : Solid (trimChars s.toList ++ more.toList) := by
    cases hlast : more.toList.getLast? with
    | none => rwa [List.getLast?_eq_none_iff.mp hlast, List.append_nil]
    | some c =>
      rw [← List.append_nil (trimChars s.toList)] at htrimmed
      exact htrimmed.withEnd hne ⟨c, hlast, hmore c hlast⟩
  rw [trim, String.toList_append, String.toList_ofList, trimChars_of_solid hsolid]

theorem exists_parse_of_items {before after more : List Char} {ns : List Node}
    (hsolid : Solid (before ++ after)) (hlast : more.getLast? = some 'x')
    (hns : Items false (before ++ more) ns []) :
    ∃ more q, parse (String.ofList before ++ more) = .ok q := by
  obtain rfl | hbefore := eq_or_ne before []
  · exact ⟨"", ⟨[]⟩, by cbv⟩
  · -- With a letter at its end the whole is not trimmed any further.
    have hsolid := hsolid.withEnd hbefore ⟨'x', hlast, by decide⟩
    refine ⟨String.ofList more, ⟨ns⟩, ?_⟩
    rw [← String.ofList_append, parse_eq_ok_iff, String.toList_ofList, trimChars_of_solid hsolid]
    exact hns

/-- A fault stands at the leftmost place where the text is no query: it points at what is wrong
there, the text in front of the place can be completed to a query, and unless something is never
closed the fault stays whatever comes after. -/
theorem parse_error_leftmost {s : String} {fault : Error} (h : parse s = .error fault) :
    ∃ before after : String, trim s = before ++ after ∧ before.utf8ByteSize = fault.place ∧
      fault.Points before.toList after.toList ∧
      (∃ more q, parse (before ++ more) = .ok q) ∧
      (fault.isUnclosed = false → after ≠ "" →
        ∀ more : String, (∀ c ∈ more.toList.getLast?, isBlank c = false) →
          parse (trim s ++ more) = .error fault) := by
  obtain ⟨found, hfound, rfl⟩ := (parse_eq_error_iff s fault).mp h
  obtain ⟨groups, rest, hopened, hbroken⟩ := parseFrom_eq_error_iff.mp hfound
  obtain ⟨before, more, ns, htext, hpoints, hlast, hns⟩ := points_of_broken hopened hbroken
  have hne := ne_nil_of_fault hfound
  refine ⟨String.ofList before, String.ofList found.place, ?_, ?_, ?_, ?_, ?_⟩
  · rw [trim, htext, String.ofList_append]
  · rw [Fault.place_map, utf8ByteSize_ofList, htext, byteLength_append, Nat.add_sub_cancel]
  · simpa [Fault.points_map] using hpoints
  · exact exists_parse_of_items (htext ▸ solid_trimChars hne) hlast hns
  · intro hunclosed hafter more hmore
    have hplace : found.place ≠ [] := fun hnil => hafter (by rw [hnil])
    rw [Fault.isUnclosed_map] at hunclosed
    rw [parse_eq_error_iff, trimChars_trim_append hne hmore]
    refine ⟨found.map (· ++ more.toList), parseFrom_append hfound hunclosed hplace _, ?_⟩
    simp only [Fault.map_map, byteLength_append, Nat.add_sub_add_right]

/-- In a group a name without its colon stays a fault, also when the groups are closed after it. -/
theorem parse_error_leftmost_name :
    parse " a:é (b:c OR (d:e) x y:z" = .error (.expectedColon "x" 20) ∧
      (∀ c ∈ "))".toList.getLast?, isBlank c = false) ∧
      (∃ before after : String, trim " a:é (b:c OR (d:e) x y:z" = before ++ after ∧
        before.utf8ByteSize = 20 ∧ after ≠ "" ∧ ∃ more q, parse (before ++ more) = .ok q) ∧
      parse (trim " a:é (b:c OR (d:e) x y:z" ++ "))") = .error (.expectedColon "x" 20) := by
  have h : parse " a:é (b:c OR (d:e) x y:z" = .error (.expectedColon "x" 20) := by cbv
  have hblank : ∀ c ∈ "))".toList.getLast?, isBlank c = false := by simp [isBlank]
  obtain ⟨before, after, htext, hsize, -, hmore, hstays⟩ := parse_error_leftmost h
  have hafter : after ≠ "" := by
    rintro rfl
    rw [String.append_empty] at htext
    rw [← htext] at hsize
    exact absurd hsize (by decide +kernel)
  exact ⟨h, hblank, ⟨before, after, htext, hsize, hafter, hmore⟩,
    hstays rfl hafter "))" hblank⟩

end CalendarRules.Query
