/-! # Decimal digits -/

namespace CalendarRules.Decimal

theorem toDigits_eq_cons (n : Nat) :
    ∃ d ds, Nat.toDigits 10 n = d :: ds ∧ d.isDigit = true := by
  obtain ⟨d, ds, hds⟩ := List.exists_cons_of_ne_nil (Nat.toDigits_ne_nil (n := n) (b := 10))
  have hmem : d ∈ Nat.toDigits 10 n := hds ▸ List.mem_cons_self
  exact ⟨d, ds, hds, Nat.isDigit_of_mem_toDigits (by decide) (by decide) hmem⟩

theorem eq_zero_of_head?_toDigits (n : Nat) (h : (Nat.toDigits 10 n).head? = some '0') : n = 0 := by
  induction n using Nat.strongRecOn with
  | _ n ih =>
    by_cases hn : n < 10
    · rw [Nat.toDigits_of_lt_base hn, List.head?_cons, Option.some.injEq] at h
      exact Nat.digitChar_eq_zero.mp h
    · obtain ⟨d, ds, hds, -⟩ := toDigits_eq_cons (n / 10)
      rw [Nat.toDigits_of_base_le (by omega) (by omega), hds] at h
      have hzero := ih (n / 10) (by omega) (by rw [hds]; exact h)
      omega

theorem toDigits_append_ne {c : Char} (hc : c.isDigit = false) (m : Nat) (cs tail : List Char) :
    Nat.toDigits 10 m ++ cs ≠ c :: tail := by
  intro h
  obtain ⟨d, ds, hds, hd⟩ := toDigits_eq_cons m
  rw [hds, List.cons_append, List.cons.injEq] at h
  rw [h.1, hc] at hd
  cases hd

theorem toList_toString (n : Int) :
    (toString n).toList = (if n < 0 then ['-'] else []) ++ Nat.toDigits 10 n.natAbs := by
  rw [Int.toString_eq_repr, Int.repr_eq_if]
  by_cases hn : n < 0
  · have hsize : (-n).toNat = n.natAbs := by omega
    simp [hn, Int.not_le.mpr hn, hsize]
  · have hsize : n.toNat = n.natAbs := by omega
    simp [hn, Int.not_lt.mp hn, hsize]

theorem toString_eq_cons (n : Int) :
    ∃ c cs, (toString n).toList = c :: cs ∧ (c.isDigit = true ∨ c = '-') := by
  rw [toList_toString]
  split
  · exact ⟨_, _, rfl, .inr rfl⟩
  · obtain ⟨d, ds, hds, hd⟩ := toDigits_eq_cons n.natAbs
    exact ⟨d, ds, hds, .inl hd⟩

end CalendarRules.Decimal
