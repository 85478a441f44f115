import CalendarRules.Proofs.Text.Runs
import CalendarRules.Text.Blank
import Mathlib.Data.List.DropRight

/-! # Trimmed and joined texts -/

namespace CalendarRules.Text

theorem isBlank_of_isDigit {c : Char} (h : c.isDigit = true) : isBlank c = false := by
  have hbounds : 48 ≤ c.toNat ∧ c.toNat ≤ 57 := Char.isDigit_iff_toNat.mp h
  simp only [isBlank, Bool.or_eq_false_iff, Bool.and_eq_false_iff, decide_eq_false_iff_not,
    beq_eq_false_iff_ne]
  omega

theorem trimChars_around {before cs after : List Char} (hbefore : ∀ c ∈ before, isBlank c = true)
    (hafter : ∀ c ∈ after, isBlank c = true) (hne : cs ≠ [])
    (hhead : ∀ c ∈ cs.head?, isBlank c = false) (hlast : ∀ c ∈ cs.getLast?, isBlank c = false) :
    trimChars (before ++ cs ++ after) = cs := by
  have hstart : (before ++ (cs ++ after)).dropWhile isBlank = cs ++ after := by
    refine (takeWhile_run isBlank _ _ hbefore ?_).2
    obtain ⟨c, cs, rfl⟩ := List.exists_cons_of_ne_nil hne
    simpa using hhead
  have hend : (after.reverse ++ cs.reverse).dropWhile isBlank = cs.reverse := by
    refine (takeWhile_run isBlank _ _ (by simpa using hafter) ?_).2
    rwa [List.head?_reverse]
  rw [trimChars, trimStartChars, List.append_assoc, hstart, trimEndChars, List.reverse_append, hend,
    List.reverse_reverse]

theorem toList_of_trim {s : String} (h : trim s = s) : trimChars s.toList = s.toList := by
  have htoList := congrArg String.toList h
  rwa [trim, String.toList_ofList] at htoList

/-- The text has a last character, and that is no blank. -/
def EndsInText (cs : List Char) : Prop := ∃ c, cs.getLast? = some c ∧ isBlank c = false

theorem endsInText_concat (cs : List Char) (c : Char) :
    EndsInText (cs ++ [c]) ↔ isBlank c = false := by
  simp [EndsInText]

theorem trimEndChars_concat_eq_self_iff (cs : List Char) (c : Char) :
    trimEndChars (cs ++ [c]) = cs ++ [c] ↔ isBlank c = false := by
  have hself : trimEndChars (cs ++ [c]) = cs ++ [c] ↔ _ := List.rdropWhile_eq_self_iff
  rw [hself]
  simp

theorem trimEndChars_space_eq_self_iff (cs ds : List Char) :
    trimEndChars (cs ++ ' ' :: ds) = cs ++ ' ' :: ds ↔ EndsInText ds := by
  obtain rfl | ⟨ds, c, rfl⟩ := List.eq_nil_or_concat' ds
  · have hblank := trimEndChars_concat_eq_self_iff cs ' '
    have hspace : isBlank ' ' = true := by decide
    simpa [EndsInText, hspace] using hblank
  · have hconcat := trimEndChars_concat_eq_self_iff (cs ++ ' ' :: ds) c
    rw [endsInText_concat, ← hconcat, List.append_assoc, List.cons_append]

theorem length_trimEnd_le (s : String) : (trimEnd s).length ≤ s.length := by
  have hprefix := (List.rdropWhile_prefix isBlank (l := s.toList)).length_le
  rwa [trimEnd, String.length_ofList, ← String.length_toList]

/-! ## Joined texts -/

theorem length_join_le {α : Type} {f g : α → String} {l : List α}
    (hle : ∀ a ∈ l, (f a).length ≤ (g a).length) :
    (String.join (l.map f)).length ≤ (String.join (l.map g)).length := by
  induction l with
  | nil => exact Nat.le_refl _
  | cons a l ih =>
    obtain ⟨ha, hl⟩ := List.forall_mem_cons.mp hle
    simp only [List.map_cons, String.join_cons, String.length_append]
    exact Nat.add_le_add ha (ih hl)

theorem eq_of_join_eq {α : Type} {f g : α → String} {l : List α}
    (hle : ∀ a ∈ l, (f a).length ≤ (g a).length)
    (h : String.join (l.map f) = String.join (l.map g)) : ∀ a ∈ l, f a = g a := by
  induction l with
  | nil => exact fun a ha => absurd ha List.not_mem_nil
  | cons a l ih =>
    obtain ⟨ha, hl⟩ := List.forall_mem_cons.mp hle
    simp only [List.map_cons, String.join_cons] at h
    have hlength := congrArg String.length h
    have hrest := length_join_le hl
    simp only [String.length_append] at hlength
    have hfirst : (f a).toList.length = (g a).toList.length := by
      simp only [String.length_toList]
      omega
    have hlist := congrArg String.toList h
    simp only [String.toList_append] at hlist
    obtain ⟨heq, htail⟩ := List.append_inj hlist hfirst
    exact List.forall_mem_cons.mpr ⟨String.toList_inj.mp heq, ih hl (String.toList_inj.mp htail)⟩

end CalendarRules.Text
