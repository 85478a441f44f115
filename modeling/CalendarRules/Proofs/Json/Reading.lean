import CalendarRules.Proofs.Json.Page

/-!
# Only a spelling of a value is read as that value

Each step of the reader takes a piece of the text that the grammar has in that place. With what is
known of spellings, a text has a value exactly when it spells it, and it spells at most one.
-/

namespace CalendarRules.Json

open Text

/-! ## Blanks -/

theorem Blank.append {b b' : List Char} (hb : Blank b) (hb' : Blank b') : Blank (b ++ b') :=
  fun c hc => (List.mem_append.mp hc).elim (hb c) (hb' c)

theorem exists_blank {cs ds : List Char} (h : skipSpace cs = ds) :
    ∃ b, Blank b ∧ cs = b ++ ds := by
  refine ⟨cs.takeWhile isSpace, fun c hc => List.mem_takeWhile_imp hc, ?_⟩
  rw [← h, skipSpace, List.takeWhile_append_dropWhile]

theorem Spelled.before {v : Value} {b cs : List Char} (hb : Blank b) (h : Spelled v cs) :
    Spelled v (b ++ cs) := by
  simpa using Spelled.spaced hb h blank_nil

theorem Spelled.after {v : Value} {cs b : List Char} (h : Spelled v cs) (hb : Blank b) :
    Spelled v (cs ++ b) := by
  simpa using Spelled.spaced blank_nil h hb

theorem SpelledItems.before {vs : List Value} {b cs : List Char} (hb : Blank b)
    (h : SpelledItems vs cs) : SpelledItems vs (b ++ cs) := by
  cases h with
  | one hv => exact .one (hv.before hb)
  | cons hv hvs => simpa using SpelledItems.cons (hv.before hb) hvs

theorem SpelledMembers.before {ms : List (String × Value)} {b cs : List Char} (hb : Blank b)
    (h : SpelledMembers ms cs) : SpelledMembers ms (b ++ cs) := by
  cases h with
  | one hname hb₁ hb' hv => simpa using SpelledMembers.one hname (hb.append hb₁) hb' hv
  | cons hname hb₁ hb' hv hms =>
    simpa using SpelledMembers.cons hname (hb.append hb₁) hb' hv hms

/-! ## One step of the reader -/

/-- A part that is read with so much fuel, and that has a value, spells it. -/
def ReadsSpelled (fuel : Nat) : Prop :=
  ∀ {cs rest src room v}, readSource? fuel cs = some (src, rest) → src.value? room = some v →
    ∃ ds, Spelled v ds ∧ v.depth ≤ room ∧ cs = ds ++ rest

def ReadsItems (fuel : Nat) : Prop :=
  ∀ {cs rest srcs room vs}, readItems? fuel cs = some (srcs, rest) →
    itemValues? room srcs = some vs →
    ∃ ds, SpelledItems vs ds ∧ itemsDepth vs ≤ room ∧ cs = ds ++ ']' :: rest

def ReadsMembers (fuel : Nat) : Prop :=
  ∀ {cs rest srcs room ms}, readMembers? fuel cs = some (srcs, rest) →
    memberValues? room srcs = some ms →
    ∃ ds, SpelledMembers ms ds ∧ membersDepth ms ≤ room ∧ cs = ds ++ '\x7d' :: rest

theorem value?_list {srcs : List Source} {room : Nat} {v : Value}
    (h : (Source.list srcs).value? room = some v) :
    ∃ vs, v = .list vs ∧ itemValues? (room - 1) srcs = some vs ∧ room ≠ 0 := by
  rw [Source.value?] at h
  split at h
  · cases h
  · rename_i hroom
    obtain ⟨vs, hvs, rfl⟩ := Option.map_eq_some_iff.mp h
    exact ⟨vs, rfl, hvs, hroom⟩

theorem value?_object {srcs : List (List Piece × Source)} {room : Nat} {v : Value}
    (h : (Source.object srcs).value? room = some v) :
    ∃ ms, v = .object ms ∧ memberValues? (room - 1) srcs = some ms ∧ room ≠ 0 := by
  rw [Source.value?] at h
  split at h
  · cases h
  · rename_i hroom
    obtain ⟨ms, hms, rfl⟩ := Option.map_eq_some_iff.mp h
    exact ⟨ms, rfl, hms, hroom⟩

theorem itemValues?_cons {src : Source} {srcs : List Source} {room : Nat} {vs : List Value}
    (h : itemValues? room (src :: srcs) = some vs) :
    ∃ v vs', src.value? room = some v ∧ itemValues? room srcs = some vs' ∧ vs = v :: vs' := by
  simp only [itemValues?, bind, Option.bind_eq_some_iff] at h
  obtain ⟨v, hv, vs', hvs', heq⟩ := h
  exact ⟨v, vs', hv, hvs', (Option.some.inj heq).symm⟩

theorem memberValues?_cons {ps : List Piece} {src : Source} {srcs : List (List Piece × Source)}
    {room : Nat} {ms : List (String × Value)}
    (h : memberValues? room ((ps, src) :: srcs) = some ms) :
    ∃ name v ms', textOf? ps = some name ∧ src.value? room = some v ∧
      memberValues? room srcs = some ms' ∧ ms = (name, v) :: ms' := by
  simp only [memberValues?, bind, Option.bind_eq_some_iff] at h
  obtain ⟨name, hname, v, hv, ms', hms', heq⟩ := h
  exact ⟨name, v, ms', hname, hv, hms', (Option.some.inj heq).symm⟩

theorem ReadsItems.step {fuel : Nat} (hone : ReadsSpelled fuel) (hmore : ReadsItems fuel) :
    ReadsItems (fuel + 1) := by
  intro cs rest srcs room vs h hvalues
  simp only [readItems?, bind, Option.bind_eq_some_iff] at h
  obtain ⟨⟨src, left⟩, hread, h⟩ := h
  split at h
  · rename_i tail hcomma
    obtain ⟨⟨srcs', rest'⟩, hitems, heq⟩ := Option.bind_eq_some_iff.mp h
    cases heq
    obtain ⟨v, vs', hv, hvs', rfl⟩ := itemValues?_cons hvalues
    obtain ⟨ds, hds, hdepth, rfl⟩ := hone hread hv
    obtain ⟨b, hb, rfl⟩ := exists_blank hcomma
    obtain ⟨es, hes, hrest, rfl⟩ := hmore hitems hvs'
    refine ⟨_, .cons (hds.after hb) hes, Nat.max_le.mpr ⟨hdepth, hrest⟩, by simp⟩
  · rename_i tail hbracket
    cases h
    obtain ⟨v, vs', hv, hnil, rfl⟩ := itemValues?_cons hvalues
    cases hnil
    obtain ⟨ds, hds, hdepth, rfl⟩ := hone hread hv
    obtain ⟨b, hb, rfl⟩ := exists_blank hbracket
    exact ⟨_, .one (hds.after hb), Nat.max_le.mpr ⟨hdepth, Nat.zero_le _⟩, by simp⟩
  · cases h

theorem ReadsMembers.step {fuel : Nat} (hone : ReadsSpelled fuel) (hmore : ReadsMembers fuel) :
    ReadsMembers (fuel + 1) := by
  intro cs rest srcs room ms h hvalues
  simp only [readMembers?, bind, Option.bind_eq_some_iff] at h
  obtain ⟨⟨ps, afterName⟩, hname, h⟩ := h
  generalize hskip : skipSpace cs = trimmed at hname
  obtain ⟨b₀, hb₀, rfl⟩ := exists_blank hskip
  split at h
  · rename_i afterColon hcolon
    obtain ⟨⟨src, left⟩, hread, h⟩ := Option.bind_eq_some_iff.mp h
    obtain ⟨b', hb', rfl⟩ := exists_blank hcolon
    split at h
    · rename_i tail hcomma
      obtain ⟨⟨srcs', rest'⟩, hmembers, heq⟩ := Option.bind_eq_some_iff.mp h
      cases heq
      obtain ⟨name, v, ms', htext, hv, hms', rfl⟩ := memberValues?_cons hvalues
      obtain ⟨q, hq, rfl⟩ := exists_quotedText hname htext
      obtain ⟨ds, hds, hdepth, rfl⟩ := hone hread hv
      obtain ⟨b, hb, rfl⟩ := exists_blank hcomma
      obtain ⟨es, hes, hrest, rfl⟩ := hmore hmembers hms'
      exact ⟨_, .cons hq hb₀ hb' (hds.after hb) hes, Nat.max_le.mpr ⟨hdepth, hrest⟩, by simp⟩
    · rename_i tail hbrace
      cases h
      obtain ⟨name, v, ms', htext, hv, hnil, rfl⟩ := memberValues?_cons hvalues
      cases hnil
      obtain ⟨q, hq, rfl⟩ := exists_quotedText hname htext
      obtain ⟨ds, hds, hdepth, rfl⟩ := hone hread hv
      obtain ⟨b, hb, rfl⟩ := exists_blank hbrace
      exact ⟨_, .one hq hb₀ hb' (hds.after hb), Nat.max_le.mpr ⟨hdepth, Nat.zero_le _⟩, by simp⟩
    · cases h
  · cases h

theorem ReadsSpelled.step {fuel : Nat} (hitems : ReadsItems fuel) (hmembers : ReadsMembers fuel) :
    ReadsSpelled (fuel + 1) := by
  intro cs rest src room v h hvalue
  rw [readSource?] at h
  generalize hskip : skipSpace cs = trimmed at h
  obtain ⟨b, hb, rfl⟩ := exists_blank hskip
  suffices hpart : ∃ ds, Spelled v ds ∧ v.depth ≤ room ∧ trimmed = ds ++ rest by
    obtain ⟨ds, hds, hdepth, rfl⟩ := hpart
    exact ⟨b ++ ds, hds.before hb, hdepth, by rw [List.append_assoc]⟩
  -- The first character says what follows: a list, an object, a text, a word or a number.
  split at h
  case h_1 tail =>
    split at h
    · rename_i after hempty
      cases h
      obtain ⟨vs, rfl, hvs, hroom⟩ := value?_list hvalue
      cases hvs
      obtain ⟨b', hb', rfl⟩ := exists_blank hempty
      exact ⟨_, .emptyList hb', Nat.pos_of_ne_zero hroom, by simp⟩
    · obtain ⟨⟨srcs, after⟩, hread, heq⟩ := Option.bind_eq_some_iff.mp h
      cases heq
      obtain ⟨vs, rfl, hvs, hroom⟩ := value?_list hvalue
      generalize hinner : skipSpace tail = inner at hread
      obtain ⟨b', hb', rfl⟩ := exists_blank hinner
      obtain ⟨ds, hds, hdepth, rfl⟩ := hitems hread hvs
      refine ⟨_, .list (hds.before hb'), ?_, by simp⟩
      rw [Value.depth]
      omega
  case h_2 tail =>
    split at h
    · rename_i after hempty
      cases h
      obtain ⟨ms, rfl, hms, hroom⟩ := value?_object hvalue
      cases hms
      obtain ⟨b', hb', rfl⟩ := exists_blank hempty
      exact ⟨_, .emptyObject hb', Nat.pos_of_ne_zero hroom, by simp⟩
    · obtain ⟨⟨srcs, after⟩, hread, heq⟩ := Option.bind_eq_some_iff.mp h
      cases heq
      obtain ⟨ms, rfl, hms, hroom⟩ := value?_object hvalue
      generalize hinner : skipSpace tail = inner at hread
      obtain ⟨b', hb', rfl⟩ := exists_blank hinner
      obtain ⟨ds, hds, hdepth, rfl⟩ := hmembers hread hms
      refine ⟨_, .object (hds.before hb'), ?_, by simp⟩
      rw [Value.depth]
      omega
  case h_3 tail =>
    obtain ⟨⟨ps, after⟩, hread, heq⟩ := Option.bind_eq_some_iff.mp h
    cases heq
    obtain ⟨s, hs, rfl⟩ := Option.map_eq_some_iff.mp hvalue
    obtain ⟨body, hbody, rfl⟩ := exists_piecesText hread
    exact ⟨_, .text ⟨ps, body, hbody, hs, rfl⟩, Nat.zero_le _, by simp⟩
  case h_4 tail =>
    cases h
    cases hvalue
    exact ⟨_, .null, Nat.zero_le _, rfl⟩
  case h_5 tail =>
    cases h
    cases hvalue
    exact ⟨_, .true, Nat.zero_le _, rfl⟩
  case h_6 tail =>
    cases h
    cases hvalue
    exact ⟨_, .false, Nat.zero_le _, rfl⟩
  case h_7 =>
    obtain ⟨⟨l, after⟩, hread, heq⟩ := Option.bind_eq_some_iff.mp h
    cases heq
    obtain ⟨n, hn, rfl⟩ := Option.map_eq_some_iff.mp hvalue
    obtain ⟨ds, hds, hcs⟩ := exists_numberText hread
    exact ⟨_, .number ((isNumeral_iff _ _).mpr ⟨l, hds, hn⟩), Nat.zero_le _, hcs⟩

/-! ## The whole text -/

theorem readsSpelled (fuel : Nat) :
    ReadsSpelled fuel ∧ ReadsItems fuel ∧ ReadsMembers fuel := by
  induction fuel with
  | zero =>
    refine ⟨fun h => ?_, fun h => ?_, fun h => ?_⟩
    · cases (readSource?.eq_1 _).symm.trans h
    · cases (readItems?.eq_1 _).symm.trans h
    · cases (readMembers?.eq_1 _).symm.trans h
  | succ fuel ih =>
    obtain ⟨hone, hitems, hmembers⟩ := ih
    exact ⟨ReadsSpelled.step hitems hmembers, ReadsItems.step hone hitems,
      ReadsMembers.step hone hmembers⟩

/-- A text is read as a value exactly when it spells it and lists and objects do not nest too
deep. -/
theorem Value.ofString?_eq_some_iff (s : String) (v : Value) :
    Value.ofString? s = some v ↔ Spelled v s.toList ∧ v.depth ≤ maxNesting := by
  constructor
  · intro h
    obtain ⟨src, hsrc, hvalue⟩ := Option.bind_eq_some_iff.mp h
    obtain ⟨⟨src', left⟩, hread, hend⟩ := Option.bind_eq_some_iff.mp hsrc
    simp only at hend
    split at hend
    · rename_i hempty
      cases hend
      obtain ⟨ds, hds, hdepth, hcs⟩ := (readsSpelled _).1 hread hvalue
      obtain ⟨b, hb, rfl⟩ := exists_blank (List.isEmpty_iff.mp hempty)
      rw [hcs]
      exact ⟨by simpa using hds.after hb, hdepth⟩
    · cases hend
  · exact fun h => ofString?_spelled h.1 h.2

theorem Spelled.unique {v w : Value} {cs : List Char} (hv : Spelled v cs) (hw : Spelled w cs) :
    v = w := by
  obtain ⟨src, hsrc, hvalue⟩ := hv.ofChars?
  obtain ⟨src', hsrc', hvalue'⟩ := hw.ofChars?
  rw [hsrc, Option.some.injEq] at hsrc'
  have hread := hvalue (max v.depth w.depth) (Nat.le_max_left ..)
  rw [hsrc', hvalue' _ (Nat.le_max_right ..)] at hread
  exact (Option.some.inj hread).symm

end CalendarRules.Json
