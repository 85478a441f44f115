import CalendarRules.Json.Read
import CalendarRules.Json.Write

/-!
# Text is read back from its quotes

Every character is escaped by itself, so a text is read character by character, and the pieces of
each are put together to that character again.
-/

namespace CalendarRules.Json

theorem hexValue?_hexDigit (n : Nat) : hexValue? (hexDigit n) = some (n % 16) := by
  have h : ∀ d < 16, hexValue? (Nat.digitChar d) = some d := by decide
  exact h _ (Nat.mod_lt n (by omega))

theorem joinPieces?_unit {n : Nat} (hn : n < 0xd800) (ps : List Piece) :
    joinPieces? (.unit n :: ps) = (joinPieces? ps).map (Char.ofNat n :: ·) := by
  have hhigh : isHighUnit n = false := by simp [isHighUnit]; omega
  have hlow : isLowUnit n = false := by simp [isLowUnit]; omega
  rw [joinPieces?.eq_def]
  simp only [hhigh, hlow, Bool.false_eq_true, if_false]
  cases joinPieces? ps <;> rfl

theorem readPieces?_short {c x : Char} (hx : shortEscape? x = some c) (hu : x ≠ 'u')
    (cs : List Char) :
    readPieces? ('\\' :: x :: cs) = (readPieces? cs).map fun p => (.plain c :: p.1, p.2) := by
  rw [readPieces?.eq_3 _ _ (fun _ _ _ _ _ h => absurd h hu), hx]
  cases readPieces? cs <;> rfl

theorem readPieces?_plain {c : Char} (hc : ¬ c.toNat < 0x20) (hquote : c ≠ '"') (hslash : c ≠ '\\')
    (cs : List Char) :
    readPieces? (c :: cs) = (readPieces? cs).map fun p => (.plain c :: p.1, p.2) := by
  rw [readPieces?.eq_4 _ _ hquote (fun _ _ _ _ _ h => absurd h hslash)
    (fun _ _ h => absurd h hslash)]
  simp only [decide_eq_false hc, decide_eq_false hslash, Bool.or_self, Bool.false_eq_true, if_false]
  cases readPieces? cs <;> rfl

theorem escapeChar_cases (c : Char) :
    (∃ x, escapeChar c = ['\\', x] ∧ shortEscape? x = some c) ∨
      (escapeChar c = ['\\', 'u', '0', '0', hexDigit (c.toNat / 16), hexDigit c.toNat] ∧
        c.toNat < 0x20) ∨
      (escapeChar c = [c] ∧ ¬ c.toNat < 0x20 ∧ c ≠ '"' ∧ c ≠ '\\') := by
  by_cases hquote : c = '"'
  · exact .inl ⟨'"', by rw [hquote]; rfl, by rw [hquote]; rfl⟩
  by_cases hslash : c = '\\'
  · exact .inl ⟨'\\', by rw [hslash]; rfl, by rw [hslash]; rfl⟩
  by_cases hfeed : c = '\n'
  · exact .inl ⟨'n', by rw [hfeed]; rfl, by rw [hfeed]; rfl⟩
  by_cases hreturn : c = '\r'
  · exact .inl ⟨'r', by rw [hreturn]; rfl, by rw [hreturn]; rfl⟩
  by_cases htab : c = '\t'
  · exact .inl ⟨'t', by rw [htab]; rfl, by rw [htab]; rfl⟩
  by_cases hback : c = '\x08'
  · exact .inl ⟨'b', by rw [hback]; rfl, by rw [hback]; rfl⟩
  by_cases hform : c = '\x0c'
  · exact .inl ⟨'f', by rw [hform]; rfl, by rw [hform]; rfl⟩
  unfold escapeChar
  rw [if_neg hquote, if_neg hslash, if_neg hfeed, if_neg hreturn, if_neg htab, if_neg hback,
    if_neg hform]
  by_cases hcontrol : c.toNat < 0x20
  · exact .inr (.inl ⟨if_pos hcontrol, hcontrol⟩)
  · exact .inr (.inr ⟨if_neg hcontrol, hcontrol, hquote, hslash⟩)

/-! ## The texts of a text -/

/-- What stands between the quotes. A character stands for itself, or it is escaped by a letter or
by the number of a unit in four digits. -/
inductive PiecesText : List Piece → List Char → Prop where
  | nil : PiecesText [] []
  | plain {c ps cs} (hcontrol : ¬ c.toNat < 0x20) (hquote : c ≠ '"') (hslash : c ≠ '\\')
      (hps : PiecesText ps cs) : PiecesText (.plain c :: ps) (c :: cs)
  | short {x c ps cs} (hx : shortEscape? x = some c) (hps : PiecesText ps cs) :
    PiecesText (.plain c :: ps) ('\\' :: x :: cs)
  | unit {x₁ x₂ x₃ x₄ n₁ n₂ n₃ n₄ ps cs} (h₁ : hexValue? x₁ = some n₁) (h₂ : hexValue? x₂ = some n₂)
      (h₃ : hexValue? x₃ = some n₃) (h₄ : hexValue? x₄ = some n₄) (hps : PiecesText ps cs) :
    PiecesText (.unit ((n₁ * 16 + n₂) * 256 + (n₃ * 16 + n₄)) :: ps)
      ('\\' :: 'u' :: x₁ :: x₂ :: x₃ :: x₄ :: cs)

/-- The text is in quotes there. -/
def QuotedText (s : String) (cs : List Char) : Prop :=
  ∃ ps body, PiecesText ps body ∧ textOf? ps = some s ∧ cs = '"' :: body ++ ['"']

theorem shortEscape?_ne_u {x c : Char} (h : shortEscape? x = some c) : x ≠ 'u' := by
  rintro rfl
  cases h

theorem readPieces?_piecesText {ps : List Piece} {cs : List Char} (h : PiecesText ps cs)
    (rest : List Char) : readPieces? (cs ++ '"' :: rest) = some (ps, rest) := by
  induction h with
  | nil => exact readPieces?.eq_1 rest
  | plain hcontrol hquote hslash _ ih =>
    rw [List.cons_append, readPieces?_plain hcontrol hquote hslash, ih]
    rfl
  | short hx _ ih =>
    rw [List.cons_append, List.cons_append, readPieces?_short hx (shortEscape?_ne_u hx), ih]
    rfl
  | unit h₁ h₂ h₃ h₄ _ ih =>
    simp only [List.cons_append, readPieces?.eq_2, h₁, h₂, h₃, h₄, ih, bind, Option.bind_some]

theorem exists_piecesText {cs : List Char} {ps : List Piece} {rest : List Char}
    (h : readPieces? cs = some (ps, rest)) :
    ∃ body, PiecesText ps body ∧ cs = body ++ '"' :: rest := by
  fun_induction readPieces? cs generalizing ps rest with
  | case1 cs =>
    cases h
    exact ⟨[], .nil, rfl⟩
  | case2 a b c d cs ih =>
    simp only [bind, Option.bind_eq_some_iff] at h
    obtain ⟨n₁, h₁, n₂, h₂, n₃, h₃, n₄, h₄, ⟨qs, left⟩, hread, heq⟩ := h
    cases heq
    obtain ⟨body, hbody, rfl⟩ := ih hread
    exact ⟨_, .unit h₁ h₂ h₃ h₄ hbody, rfl⟩
  | case3 x cs hunit ih =>
    simp only [bind, Option.bind_eq_some_iff] at h
    obtain ⟨c, hx, ⟨qs, left⟩, hread, heq⟩ := h
    cases heq
    obtain ⟨body, hbody, rfl⟩ := ih hread
    exact ⟨_, .short hx hbody, rfl⟩
  | case4 c cs hquote hunit hshort hrefused => cases h
  | case5 c cs hquote hunit hshort hallowed ih =>
    simp only [bind, Option.bind_eq_some_iff] at h
    obtain ⟨⟨qs, left⟩, hread, heq⟩ := h
    cases heq
    obtain ⟨body, hbody, rfl⟩ := ih hread
    have hcontrol : ¬ c.toNat < 0x20 ∧ c ≠ '\\' := by simpa using hallowed
    exact ⟨_, .plain hcontrol.1 hquote hcontrol.2 hbody, rfl⟩
  | case6 => cases h

theorem readQuoted?_quotedText {s : String} {cs : List Char} (h : QuotedText s cs) :
    ∃ ps, (∀ rest, readQuoted? (cs ++ rest) = some (ps, rest)) ∧ textOf? ps = some s := by
  obtain ⟨ps, body, hbody, htext, rfl⟩ := h
  refine ⟨ps, fun rest => ?_, htext⟩
  have hread := readPieces?_piecesText hbody rest
  simpa [readQuoted?] using hread

theorem exists_quotedText {cs rest : List Char} {ps : List Piece} {s : String}
    (h : readQuoted? cs = some (ps, rest)) (hs : textOf? ps = some s) :
    ∃ q, QuotedText s q ∧ cs = q ++ rest := by
  unfold readQuoted? at h
  split at h
  · obtain ⟨body, hbody, rfl⟩ := exists_piecesText h
    exact ⟨_, ⟨ps, body, hbody, hs, rfl⟩, by simp⟩
  · cases h

/-! ## What is written -/

theorem exists_piece (c : Char) :
    ∃ p, (∀ ps cs, PiecesText ps cs → PiecesText (p :: ps) (escapeChar c ++ cs)) ∧
      ∀ ps, joinPieces? (p :: ps) = (joinPieces? ps).map (c :: ·) := by
  have hplain (ps : List Piece) :
      joinPieces? (.plain c :: ps) = (joinPieces? ps).map (c :: ·) := by
    rw [joinPieces?]
    cases joinPieces? ps <;> rfl
  rcases escapeChar_cases c with ⟨x, hx, hshort⟩ | ⟨hx, hc⟩ | ⟨hx, hc, hquote, hslash⟩
  · exact ⟨.plain c, fun ps cs hps => by rw [hx]; exact .short hshort hps, hplain⟩
  · refine ⟨.unit c.toNat, fun ps cs hps => ?_, fun ps => ?_⟩
    · have hzero : hexValue? '0' = some 0 := rfl
      have hsum : (0 * 16 + 0) * 256 + (c.toNat / 16 % 16 * 16 + c.toNat % 16) = c.toNat := by omega
      have hunit := PiecesText.unit hzero hzero (hexValue?_hexDigit (c.toNat / 16))
        (hexValue?_hexDigit c.toNat) hps
      rw [hsum] at hunit
      rw [hx]
      exact hunit
    · rw [joinPieces?_unit (by omega), Char.ofNat_toNat]
  · exact ⟨.plain c, fun ps cs hps => by rw [hx]; exact .plain hc hquote hslash hps, hplain⟩

theorem exists_pieces (text : List Char) :
    ∃ ps, PiecesText ps (text.flatMap escapeChar) ∧ joinPieces? ps = some text := by
  induction text with
  | nil => exact ⟨[], .nil, rfl⟩
  | cons c text ih =>
    obtain ⟨ps, hps, hjoin⟩ := ih
    obtain ⟨p, hp, hc⟩ := exists_piece c
    refine ⟨p :: ps, ?_, ?_⟩
    · rw [List.flatMap_cons]
      exact hp ps _ hps
    · rw [hc, hjoin]
      rfl

theorem quotedText_writeText (s : String) : QuotedText s (writeText s) := by
  obtain ⟨ps, hps, hjoin⟩ := exists_pieces s.toList
  exact ⟨ps, _, hps, by rw [textOf?, hjoin, Option.map_some, String.ofList_toList], rfl⟩

end CalendarRules.Json
