import CalendarRules.Proofs.Json.Line
import CalendarRules.Text.Quoted

/-!
# A quoted text is on one line and stands for no other text

Each character is quoted by itself, and no quoted character is the start of another one. So a text
is told from its quoted form, wherever that ends.
-/

namespace CalendarRules.Text

open Json (NoControl)

/-! ## Characters -/

/-- The character that a letter after the backslash stands for. -/
def shortQuote? (x : Char) : Option Char :=
  if x = '0' then some '\x00'
  else if x = 't' then some '\t'
  else if x = 'n' then some '\n'
  else if x = 'r' then some '\r'
  else if x = '"' || x = '\\' then some x
  else none

theorem quoteChar_cases (c : Char) :
    (∃ x, quoteChar c = ['\\', x] ∧ shortQuote? x = some c) ∨
      (quoteChar c = [c] ∧ isShown c = true ∧ c ≠ '"' ∧ c ≠ '\\') ∨
      quoteChar c = numberEscape c := by
  by_cases hnull : c = '\x00'
  · exact .inl ⟨'0', by rw [hnull]; rfl, by rw [hnull]; rfl⟩
  by_cases htab : c = '\t'
  · exact .inl ⟨'t', by rw [htab]; rfl, by rw [htab]; rfl⟩
  by_cases hfeed : c = '\n'
  · exact .inl ⟨'n', by rw [hfeed]; rfl, by rw [hfeed]; rfl⟩
  by_cases hreturn : c = '\r'
  · exact .inl ⟨'r', by rw [hreturn]; rfl, by rw [hreturn]; rfl⟩
  by_cases hquote : c = '"'
  · exact .inl ⟨'"', by rw [hquote]; rfl, by rw [hquote]; rfl⟩
  by_cases hslash : c = '\\'
  · exact .inl ⟨'\\', by rw [hslash]; rfl, by rw [hslash]; rfl⟩
  have hmarks : ¬(c = '"' || c = '\\') = true := by simp [hquote, hslash]
  unfold quoteChar
  rw [if_neg hnull, if_neg htab, if_neg hfeed, if_neg hreturn, if_neg hmarks]
  cases hshown : isShown c with
  | true => exact .inr (.inl ⟨rfl, rfl, hquote, hslash⟩)
  | false => exact .inr (.inr rfl)

/-! ## Numbers of characters -/

theorem hexDigit_of_lt {n : Nat} (h : n < 16) :
    0x20 ≤ n.digitChar.toNat ∧ n.digitChar ≠ '\x7d' := by
  decide +revert

theorem digitChar_inj : ∀ m < 16, ∀ n < 16, m.digitChar = n.digitChar → m = n := by decide

theorem exists_of_mem_toDigits {n : Nat} {c : Char} (hc : c ∈ Nat.toDigits 16 n) :
    ∃ d, d < 16 ∧ c = d.digitChar := by
  induction n using Nat.strongRecOn with
  | _ n ih =>
    by_cases hn : n < 16
    · rw [Nat.toDigits_of_lt_base hn, List.mem_singleton] at hc
      exact ⟨n, hn, hc⟩
    · rw [Nat.toDigits_of_base_le (by omega) (by omega), List.mem_append, List.mem_singleton] at hc
      rcases hc with hc | hc
      · exact ih (n / 16) (by omega) hc
      · exact ⟨n % 16, by omega, hc⟩

theorem toDigits_inj {m n : Nat} (h : Nat.toDigits 16 m = Nat.toDigits 16 n) : m = n := by
  induction m using Nat.strongRecOn generalizing n with
  | _ m ih =>
    have hlength := congrArg List.length h
    by_cases hm : m < 16 <;> by_cases hn : n < 16
    · rw [Nat.toDigits_of_lt_base hm, Nat.toDigits_of_lt_base hn, List.singleton_inj] at h
      exact digitChar_inj m hm n hn h
    · rw [Nat.toDigits_of_lt_base hm, Nat.toDigits_of_base_le (by omega) (by omega)] at hlength
      simp at hlength
    · rw [Nat.toDigits_of_lt_base hn, Nat.toDigits_of_base_le (by omega) (by omega)] at hlength
      simp at hlength
    · rw [Nat.toDigits_of_base_le (by omega) (by omega),
        Nat.toDigits_of_base_le (by omega) (Nat.le_of_not_lt hn)] at h
      obtain ⟨hfront, hlast⟩ := List.append_inj' h rfl
      have hquotient := ih (m / 16) (by omega) hfront
      have hrest := digitChar_inj _ (by omega) _ (by omega) (List.singleton_inj.mp hlast)
      omega

theorem numberEscape_append_inj {c d : Char} {rest rest' : List Char}
    (h : numberEscape c ++ rest = numberEscape d ++ rest') : c = d ∧ rest = rest' := by
  have hbrace (c : Char) : '\x7d' ∉ Nat.toDigits 16 c.toNat := by
    intro hmem
    obtain ⟨n, hn, heq⟩ := exists_of_mem_toDigits hmem
    exact (hexDigit_of_lt hn).2 heq.symm
  simp only [numberEscape, List.cons_append, List.nil_append, List.append_assoc,
    List.cons.injEq, true_and] at h
  obtain ⟨hdigits, hrest⟩ := append_cons_inj (hbrace c) (hbrace d) h
  exact ⟨Char.toNat_inj.mp (toDigits_inj hdigits), hrest⟩

/-! ## Nothing hidden -/

theorem noControl_of_isShown {c : Char} (h : isShown c = true) : 0x20 ≤ c.toNat := by
  unfold isShown at h
  split at h
  · simp at h
    omega
  · omega

theorem noControl_of_shortQuote? {x c : Char} (h : shortQuote? x = some c) : 0x20 ≤ x.toNat := by
  by_cases hx : x ∈ ['0', 't', 'n', 'r', '"', '\\']
  · simp only [List.mem_cons, List.not_mem_nil, or_false] at hx
    rcases hx with rfl | rfl | rfl | rfl | rfl | rfl <;> decide
  · simp_all [shortQuote?]

theorem noControl_quoteChar (c : Char) : NoControl (quoteChar c) := by
  rcases quoteChar_cases c with ⟨x, hx, hshort⟩ | ⟨hx, hshown, -⟩ | hx
  · rw [hx]
    exact .cons (by decide) (.cons (noControl_of_shortQuote? hshort) (by decide))
  · rw [hx]
    exact .cons (noControl_of_isShown hshown) (by decide)
  · rw [hx, numberEscape]
    refine .append (.append (by decide) fun d hd => ?_) (by decide)
    obtain ⟨n, hn, rfl⟩ := exists_of_mem_toDigits hd
    exact (hexDigit_of_lt hn).1

theorem noControl_quoted (s : String) : NoControl (quoted s).toList := by
  rw [quoted, String.toList_ofList, quotedChars]
  refine .append (.cons (by decide) fun d hd => ?_) (by decide)
  obtain ⟨c, -, hd⟩ := List.mem_flatMap.mp hd
  exact noControl_quoteChar c d hd

/-! ## Quoted forms are told apart -/

theorem quoteChar_append_inj {c d : Char} {rest rest' : List Char}
    (h : quoteChar c ++ rest = quoteChar d ++ rest') : c = d ∧ rest = rest' := by
  have hu {x c : Char} (hshort : shortQuote? x = some c) : x ≠ 'u' := by
    rintro rfl
    cases hshort
  rcases quoteChar_cases c with ⟨x, hx, hshort⟩ | ⟨hx, -, -, hslash⟩ | hx <;>
    rcases quoteChar_cases d with ⟨y, hy, hshort'⟩ | ⟨hy, -, -, hslash'⟩ | hy <;>
    rw [hx, hy] at h
  case inl.inl =>
    simp only [List.cons_append, List.nil_append, List.cons.injEq, true_and] at h
    rw [h.1, hshort'] at hshort
    exact ⟨(Option.some.inj hshort).symm, h.2⟩
  case inr.inl.inr.inl => exact List.cons.inj h
  case inr.inr.inr.inr => exact numberEscape_append_inj h
  -- The others differ in the first character or in the second.
  case inl.inr.inl => exact absurd (List.cons.inj h).1.symm hslash'
  case inr.inl.inl => exact absurd (List.cons.inj h).1 hslash
  case inr.inl.inr.inr => exact absurd (List.cons.inj h).1 hslash
  case inr.inr.inr.inl => exact absurd (List.cons.inj h).1.symm hslash'
  case inl.inr.inr =>
    simp only [numberEscape, List.cons_append, List.nil_append, List.cons.injEq, true_and] at h
    exact absurd h.1 (hu hshort)
  case inr.inr.inl =>
    simp only [numberEscape, List.cons_append, List.nil_append, List.cons.injEq, true_and] at h
    exact absurd h.1.symm (hu hshort')

theorem quoteChar_append_ne_quote (c : Char) (rest rest' : List Char) :
    quoteChar c ++ rest ≠ '"' :: rest' := by
  rcases quoteChar_cases c with ⟨x, hx, -⟩ | ⟨hx, -, hquote, -⟩ | hx
  · simp [hx]
  · simpa [hx] using fun h : c = '"' => absurd h hquote
  · simp [hx, numberEscape]

theorem flatMap_quoteChar_inj {cs ds rest rest' : List Char}
    (h : cs.flatMap quoteChar ++ '"' :: rest = ds.flatMap quoteChar ++ '"' :: rest') :
    cs = ds ∧ rest = rest' := by
  induction cs generalizing ds with
  | nil =>
    cases ds with
    | nil => exact ⟨rfl, (List.cons.inj h).2⟩
    | cons d ds =>
      rw [List.flatMap_cons, List.append_assoc] at h
      exact absurd h.symm (quoteChar_append_ne_quote d _ _)
  | cons c cs ih =>
    rw [List.flatMap_cons, List.append_assoc] at h
    cases ds with
    | nil => exact absurd h (quoteChar_append_ne_quote c _ _)
    | cons d ds =>
      rw [List.flatMap_cons, List.append_assoc] at h
      obtain ⟨rfl, htail⟩ := quoteChar_append_inj h
      obtain ⟨rfl, hrest⟩ := ih htail
      exact ⟨rfl, hrest⟩

theorem quoted_append_inj {s t : String} {rest rest' : List Char}
    (h : (quoted s).toList ++ rest = (quoted t).toList ++ rest') : s = t ∧ rest = rest' := by
  simp only [quoted, quotedChars, String.toList_ofList, List.cons_append, List.append_assoc,
    List.nil_append, List.cons.injEq, true_and] at h
  obtain ⟨hs, hrest⟩ := flatMap_quoteChar_inj h
  exact ⟨String.toList_inj.mp hs, hrest⟩

end CalendarRules.Text
