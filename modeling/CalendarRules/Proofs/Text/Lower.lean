import CalendarRules.Proofs.Text.Partners

/-!
# Words of plain letters in any letter case

Of the characters beyond ASCII only the Kelvin sign has a lower-case form that is a plain letter and
nothing else. So a word of other plain letters is the lower-case form of its own letters alone.
-/

namespace CalendarRules.Text

/-- The character is in ASCII, and no other character has it for its lower-case form. -/
def IsOwn (c : Char) : Prop := c.toNat < 0x80 ∧ c ≠ 'k' ∧ c ≠ '\x00'

instance (c : Char) : Decidable (IsOwn c) := inferInstanceAs (Decidable (_ ∧ _ ∧ _))

/-! ## Characters beyond ASCII -/

theorem not_isOwn_ofNat {n : Nat} (h : 0x80 ≤ n ∨ n = 0x6b) : ¬IsOwn (Char.ofNat n) := by
  rcases h with h | rfl
  · rintro ⟨hascii, -, hnull⟩
    rcases toNat_ofNat_cases n with hsame | hzero
    · omega
    · exact hnull (Char.toNat_inj.mp hzero)
  · decide

theorem lowerChar_beyond {c : Char} (hc : 0x80 ≤ c.toNat) : ∃ d ∈ lowerChar c, ¬IsOwn d := by
  unfold lowerChar
  rw [if_neg (by omega)]
  split
  · exact ⟨Char.ofNat 0x307, by simp, by decide⟩
  · split
    · rename_i run hfind
      refine ⟨_, List.mem_singleton_self _, not_isOwn_ofNat ?_⟩
      have hcovers : run.covers c.toNat = true := by simpa using List.find?_some hfind
      exact target_of_covers (List.mem_of_find?_eq_some hfind) hcovers hc
    · exact ⟨c, List.mem_singleton_self c, fun h => by have := h.1; omega⟩

/-! ## Words -/

theorem lowerFrom_ascii {cs : List Char} (hcs : ∀ c ∈ cs, c.toNat < 0x80) (before : List Char) :
    lowerFrom before cs = cs.map Char.toLower := by
  induction cs generalizing before with
  | nil => rfl
  | cons c cs ih =>
    obtain ⟨hc, hcs⟩ := List.forall_mem_cons.mp hcs
    have hsigma : c ≠ 'Σ' := by
      rintro rfl
      exact absurd hc (by decide)
    rw [lowerFrom, if_neg hsigma, lowerChar_ascii hc, ih hcs]
    rfl

theorem exists_not_isOwn {cs : List Char} {c : Char} (hmem : c ∈ cs) (hc : 0x80 ≤ c.toNat)
    (before : List Char) : ∃ d ∈ lowerFrom before cs, ¬IsOwn d := by
  induction cs generalizing before with
  | nil => cases hmem
  | cons c' cs ih =>
    rw [lowerFrom]
    rcases List.mem_cons.mp hmem with rfl | hmem
    · split
      · refine ⟨lowerSigma before cs, by simp, ?_⟩
        unfold lowerSigma
        split <;> decide
      · obtain ⟨d, hd, hown⟩ := lowerChar_beyond hc
        exact ⟨d, List.mem_append_left _ hd, hown⟩
    · obtain ⟨d, hd, hown⟩ := ih hmem (c' :: before)
      exact ⟨d, List.mem_append_right _ hd, hown⟩

theorem lower_eq_iff {word : List Char} (hword : ∀ c ∈ word, IsOwn c) (s : String) :
    lower s = String.ofList word ↔ s.toList.map Char.toLower = word := by
  have hlist : lower s = String.ofList word ↔ lowerFrom [] s.toList = word := by
    unfold lower
    exact String.ofList_inj
  rw [hlist]
  by_cases hascii : ∀ c ∈ s.toList, c.toNat < 0x80
  · rw [lowerFrom_ascii hascii]
  · -- A character beyond ASCII leaves its trace on both sides, and the word has no such trace.
    obtain ⟨c, hc⟩ := Classical.not_forall.mp hascii
    obtain ⟨hmem, hbeyond⟩ := Classical.not_imp.mp hc
    have hbeyond : 0x80 ≤ c.toNat := by omega
    constructor
    · rintro rfl
      obtain ⟨d, hd, hown⟩ := exists_not_isOwn hmem hbeyond []
      exact absurd (hword d hd) hown
    · rintro rfl
      have hlt := (hword c.toLower (List.mem_map_of_mem hmem)).1
      rw [toLower_of_beyond hbeyond] at hlt
      omega

end CalendarRules.Text
