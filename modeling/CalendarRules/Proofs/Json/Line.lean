import CalendarRules.Proofs.Json.Page

/-! # What is written on one line has no line break -/

namespace CalendarRules.Json

open Decimal

/-- There is no control character in the text, and so no line break. -/
def NoControl (cs : List Char) : Prop := ∀ c ∈ cs, 0x20 ≤ c.toNat

instance (cs : List Char) : Decidable (NoControl cs) :=
  decidable_of_iff (cs.all (0x20 ≤ ·.toNat) = true) (by simp [NoControl])

namespace NoControl

theorem append {cs ds : List Char} (hcs : NoControl cs) (hds : NoControl ds) :
    NoControl (cs ++ ds) :=
  fun c hc => (List.mem_append.mp hc).elim (hcs c) (hds c)

theorem cons {c : Char} {cs : List Char} (hc : 0x20 ≤ c.toNat) (hcs : NoControl cs) :
    NoControl (c :: cs) :=
  List.forall_mem_cons.mpr ⟨hc, hcs⟩

theorem subset {cs ds : List Char} (hds : NoControl ds) (h : cs ⊆ ds) : NoControl cs :=
  fun c hc => hds c (h hc)

theorem lineFeed {cs : List Char} (h : NoControl cs) : '\n' ∉ cs :=
  fun hc => absurd (h _ hc) (by decide)

theorem carriageReturn {cs : List Char} (h : NoControl cs) : '\r' ∉ cs :=
  fun hc => absurd (h _ hc) (by decide)

end NoControl

/-! ## Numbers -/

theorem noControl_toDigits (n : Nat) : NoControl (Nat.toDigits 10 n) := by
  intro c hc
  have hdigit := Nat.isDigit_of_mem_toDigits (by decide) (by decide) hc
  have hbounds : 48 ≤ c.toNat ∧ c.toNat ≤ 57 := Char.isDigit_iff_toNat.mp hdigit
  omega

theorem noControl_placed (d : Digits) : NoControl d.placed.digits := by
  refine (noControl_toDigits d.digits).subset fun c hc => ?_
  have hmem := (List.dropWhile_sublist _).subset (List.mem_reverse.mp hc)
  exact List.mem_reverse.mp hmem

theorem noControl_text {p : Placed} (h : NoControl p.digits) : NoControl p.text := by
  have htake (k : Nat) : NoControl (p.digits.take k) := h.subset (List.take_subset _ _)
  have hdrop (k : Nat) : NoControl (p.digits.drop k) := h.subset (List.drop_subset _ _)
  have hzeros (k : Nat) : NoControl (List.replicate k '0') := by
    intro c hc
    rw [List.eq_of_mem_replicate hc]
    decide
  unfold Placed.text
  simp only
  split
  · split
    · exact (h.append (hzeros _)).append (by decide)
    · exact (htake _).append (.cons (by decide) (hdrop _))
  · split
    · exact .append (.append (by decide) (hzeros _)) h
    · refine .append (.append (.append (htake 1) ?_) ?_) (noControl_toDigits _)
      · split
        · decide
        · exact .cons (by decide) (hdrop 1)
      · split <;> decide

theorem noControl_number (n : Number) : NoControl n.text.toList := by
  cases n with
  | whole n =>
    rw [Number.text, toList_toString]
    refine .append ?_ (noControl_toDigits _)
    split <;> decide
  | real negative x =>
    rw [Number.text, String.toList_ofList]
    refine .append ?_ ?_
    · split <;> decide
    · rw [Binary.text]
      split
      · decide
      · exact noControl_text (noControl_placed _)

/-! ## Texts and values -/

theorem noControl_escapeChar (c : Char) : NoControl (escapeChar c) := by
  have hhex (n : Nat) : 0x20 ≤ (hexDigit n).toNat := by
    have h : ∀ d < 16, 0x20 ≤ (Nat.digitChar d).toNat := by decide
    exact h _ (Nat.mod_lt n (by omega))
  unfold escapeChar
  -- The quote, the backslash and the five letters.
  iterate 7
    split
    · decide
  split
  case isTrue => simp [NoControl, hhex]
  case isFalse hc => simpa [NoControl] using hc

theorem noControl_writeText (s : String) : NoControl (writeText s) := by
  refine .append (.cons (by decide) fun d hd => ?_) (by decide)
  obtain ⟨c, -, hd⟩ := List.mem_flatMap.mp hd
  exact noControl_escapeChar c d hd

theorem noControl_compactItems {vs : List Value} (h : ∀ v ∈ vs, NoControl v.compact) :
    NoControl (compactItems vs) := by
  induction vs with
  | nil => decide
  | cons v vs ih =>
    obtain ⟨hv, hvs⟩ := List.forall_mem_cons.mp h
    cases vs with
    | nil => rwa [compactItems]
    | cons w vs =>
      rw [compactItems]
      · exact hv.append (.cons (by decide) (ih hvs))
      · simp

theorem noControl_compactMembers {ms : List (String × Value)}
    (h : ∀ m ∈ ms, NoControl m.2.compact) : NoControl (compactMembers ms) := by
  induction ms with
  | nil => decide
  | cons m ms ih =>
    obtain ⟨hm, hms⟩ := List.forall_mem_cons.mp h
    have hmember := (noControl_writeText m.1).append (.cons (c := ':') (by decide) hm)
    cases ms with
    | nil => rwa [compactMembers]
    | cons m' ms =>
      rw [compactMembers]
      · exact hmember.append (.cons (by decide) (ih hms))
      · simp

theorem Value.noControl_compact (v : Value) : NoControl v.compact := by
  induction v using Value.induction with
  | null => decide
  | bool b => cases b <;> decide
  | number n => exact noControl_number n
  | text s => exact noControl_writeText s
  | list vs ih => exact .append (.cons (by decide) (noControl_compactItems ih)) (by decide)
  | object ms ih => exact .append (.cons (by decide) (noControl_compactMembers ih)) (by decide)

end CalendarRules.Json
