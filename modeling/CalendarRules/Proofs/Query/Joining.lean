import CalendarRules.Proofs.Query.Leftmost

/-!
# Two texts with separators between them

The reader keeps nothing of the first text but its items. So the second text is read as if it stood
alone, and a fault in it is the same with its place moved.
-/

namespace CalendarRules.Query

open Text Grammar

theorem solid_of_trim {s : String} (h : trim s = s) (hne : s ≠ "") : Solid s.toList := by
  rw [← toList_of_trim h]
  refine solid_trimChars ?_
  rwa [toList_of_trim h, ne_eq, String.toList_eq_nil_iff]

theorem items_before_separators {cs seps rest : List Char} {ns : List Node}
    (h : Items false cs ns []) (hseps : ∀ c ∈ seps, Separator c) (hne : seps ≠ []) :
    Items false (cs ++ (seps ++ rest)) ns rest := by
  obtain ⟨read, rfl, hread⟩ := h.goesOn
  obtain ⟨c, seps, rfl⟩ := List.exists_cons_of_ne_nil hne
  have hcontinues : Continues [] (c :: seps ++ rest) := by
    rintro d ⟨⟩
    exact .inr (.inl (hseps c List.mem_cons_self))
  have hns := (hread _ hcontinues).append (items_separators hseps (.stop false rest))
  simpa using hns

theorem parseFrom_after {cs rest : List Char} {ns : List Node} {fault : Fault (List Char)}
    (hns : Items false cs ns rest) (h : parseFrom [] [] rest = .error fault) :
    parseFrom [] [] cs = .error fault := by
  obtain ⟨groups, place, hopened, hbroken⟩ := parseFrom_eq_error_iff.mp h
  exact parseFrom_eq_error_iff.mpr ⟨groups, place, hopened.after hns, hbroken⟩

theorem exists_before_place {cs : List Char} {fault : Fault (List Char)}
    (h : parseFrom [] [] cs = .error fault) : ∃ before, cs = before ++ fault.place := by
  obtain ⟨groups, rest, hopened, hbroken⟩ := parseFrom_eq_error_iff.mp h
  obtain ⟨before, -, -, hcs, -⟩ := points_of_broken hopened hbroken
  exact ⟨before, hcs⟩

/-- Two trimmed texts with separators between them are read as the items of the first and then
those of the second, or have the fault of the second at its place behind the first. -/
theorem parse_joined {a b seps : String} {qa : Query} (ha : trim a = a) (hb : trim b = b)
    (hne : a ≠ "") (hqa : parse a = .ok qa) (hseps : ∀ c ∈ seps.toList, Separator c)
    (hsepsne : seps ≠ "") :
    (∀ qb, b ≠ "" → parse b = .ok qb →
        parse (a ++ seps ++ b) = .ok ⟨qa.items ++ qb.items⟩) ∧
      ∀ fault, parse b = .error fault →
        parse (a ++ seps ++ b) = .error (fault.map (· + (a ++ seps).utf8ByteSize)) := by
  have hitems : Items false (a ++ seps ++ b).toList qa.items b.toList := by
    rw [parse_eq_ok_iff, Derives, toList_of_trim ha] at hqa
    have hsepsne : seps.toList ≠ [] := by rwa [ne_eq, String.toList_eq_nil_iff]
    simpa using items_before_separators hqa hseps hsepsne
  have htrim (hbne : b ≠ "") : trimChars (a ++ seps ++ b).toList = (a ++ seps ++ b).toList := by
    refine trimChars_of_solid ?_
    simpa using (solid_of_trim ha hne).append (solid_of_trim hb hbne) seps.toList
  refine ⟨?_, ?_⟩
  · intro qb hbne hqb
    rw [parse_eq_ok_iff, Derives, toList_of_trim hb] at hqb
    rw [parse_eq_ok_iff, Derives, htrim hbne]
    exact hitems.append hqb
  · intro fault hfault
    obtain ⟨found, hfound, rfl⟩ := (parse_eq_error_iff b fault).mp hfault
    rw [toList_of_trim hb] at hfound ⊢
    have hbne : b ≠ "" := by
      rintro rfl
      exact ne_nil_of_fault hfound rfl
    obtain ⟨before, hbefore⟩ := exists_before_place hfound
    rw [parse_eq_error_iff, htrim hbne, Fault.map_map]
    refine ⟨found, parseFrom_after hitems hfound, Fault.map_congr ?_⟩
    rw [String.toList_append, byteLength_append, byteLength_toList (a ++ seps), hbefore,
      byteLength_append]
    omega

/-- The second text is read, or has its fault, where it stands. -/
theorem parse_joined_group :
    trim "a:\"x y\"" = "a:\"x y\"" ∧ parse "a:\"x y\"" = .ok ⟨[.term ⟨"a", "x y"⟩]⟩ ∧
      (trim "(OR b:é)" = "(OR b:é)" ∧ parse "(OR b:é)" = .ok ⟨[.anyOf [.term ⟨"b", "é"⟩]]⟩ ∧
        parse ("a:\"x y\"" ++ "\t " ++ "(OR b:é)") =
          .ok ⟨[.term ⟨"a", "x y"⟩, .anyOf [.term ⟨"b", "é"⟩]]⟩) ∧
      trim "(OR b:é" = "(OR b:é" ∧ parse "(OR b:é" = .error (.unclosedParenthesis 0) ∧
        parse ("a:\"x y\"" ++ "\t " ++ "(OR b:é") = .error (.unclosedParenthesis 9) := by
  have ha : trim "a:\"x y\"" = "a:\"x y\"" := by cbv
  have hqa : parse "a:\"x y\"" = .ok ⟨[.term ⟨"a", "x y"⟩]⟩ := by cbv
  have hb : trim "(OR b:é)" = "(OR b:é)" := by cbv
  have hqb : parse "(OR b:é)" = .ok ⟨[.anyOf [.term ⟨"b", "é"⟩]]⟩ := by cbv
  have hc : trim "(OR b:é" = "(OR b:é" := by cbv
  have hfault : parse "(OR b:é" = .error (.unclosedParenthesis 0) := by cbv
  have hseps : ∀ c ∈ "\t ".toList, Separator c := by simp [Separator]
  exact ⟨ha, hqa,
    ⟨hb, hqb, (parse_joined ha hb (by simp) hqa hseps (by simp)).1 _ (by simp) hqb⟩,
    hc, hfault, (parse_joined ha hc (by simp) hqa hseps (by simp)).2 _ hfault⟩

end CalendarRules.Query
