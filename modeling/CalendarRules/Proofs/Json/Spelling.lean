import CalendarRules.Json.Write
import CalendarRules.Proofs.Json.Number
import CalendarRules.Proofs.Json.Text

/-!
# Every spelling of a value is read as that value

A value has many texts: there may be blanks around each of its parts, and a character may be escaped
or not. The reader takes them all, as long as lists and objects are not nested too deep.
-/

namespace CalendarRules.Json

open Text

/-! ## The grammar -/

def Blank (cs : List Char) : Prop := ∀ c ∈ cs, isSpace c = true

mutual

/-- The text stands for the value. There may be blanks around it. -/
inductive Spelled : Value → List Char → Prop where
  | null : Spelled .null ['n', 'u', 'l', 'l']
  | true : Spelled (.bool true) ['t', 'r', 'u', 'e']
  | false : Spelled (.bool false) ['f', 'a', 'l', 's', 'e']
  | number {n cs} (hn : IsNumeral n cs) : Spelled (.number n) cs
  | text {s cs} (hs : QuotedText s cs) : Spelled (.text s) cs
  | emptyList {b} (hb : Blank b) : Spelled (.list []) ('[' :: b ++ [']'])
  | list {vs cs} (hvs : SpelledItems vs cs) : Spelled (.list vs) ('[' :: cs ++ [']'])
  | emptyObject {b} (hb : Blank b) : Spelled (.object []) ('\x7b' :: b ++ ['\x7d'])
  | object {ms cs} (hms : SpelledMembers ms cs) : Spelled (.object ms) ('\x7b' :: cs ++ ['\x7d'])
  | spaced {v b cs b'} (hb : Blank b) (hv : Spelled v cs) (hb' : Blank b') :
    Spelled v (b ++ cs ++ b')

inductive SpelledItems : List Value → List Char → Prop where
  | one {v cs} (hv : Spelled v cs) : SpelledItems [v] cs
  | cons {v cs vs ds} (hv : Spelled v cs) (hvs : SpelledItems vs ds) :
    SpelledItems (v :: vs) (cs ++ ',' :: ds)

inductive SpelledMembers : List (String × Value) → List Char → Prop where
  | one {name q b b' v cs} (hname : QuotedText name q) (hb : Blank b) (hb' : Blank b')
      (hv : Spelled v cs) : SpelledMembers [(name, v)] (b ++ q ++ b' ++ ':' :: cs)
  | cons {name q b b' v cs ms ds} (hname : QuotedText name q) (hb : Blank b) (hb' : Blank b')
      (hv : Spelled v cs) (hms : SpelledMembers ms ds) :
    SpelledMembers ((name, v) :: ms) (b ++ q ++ b' ++ ':' :: cs ++ ',' :: ds)

end

mutual

/-- How deep lists and objects are nested. -/
def Value.depth : Value → Nat
  | .list vs => itemsDepth vs + 1
  | .object ms => membersDepth ms + 1
  | _ => 0

def itemsDepth : List Value → Nat
  | [] => 0
  | v :: vs => max v.depth (itemsDepth vs)

def membersDepth : List (String × Value) → Nat
  | [] => 0
  | (_, v) :: ms => max v.depth (membersDepth ms)

end

/-! ## Blanks -/

theorem skipSpace_append {b : List Char} (hb : Blank b) (cs : List Char) :
    skipSpace (b ++ cs) = skipSpace cs := List.dropWhile_append_of_pos hb

theorem skipSpace_of_not {c : Char} (hc : isSpace c = false) (cs : List Char) :
    skipSpace (c :: cs) = c :: cs := by
  simp [skipSpace, hc]

theorem skipSpace_skipSpace (cs : List Char) : skipSpace (skipSpace cs) = skipSpace cs := by
  cases hcs : skipSpace cs with
  | nil => rfl
  | cons c ds =>
    have hc : c ∈ (cs.dropWhile isSpace).head? := by rw [← skipSpace, hcs]; rfl
    exact skipSpace_of_not (of_mem_head?_dropWhile hc) ds

theorem skipSpace_token {b : List Char} (hb : Blank b) {c : Char} (hc : isSpace c = false)
    (cs : List Char) : skipSpace (b ++ c :: cs) = c :: cs := by
  rw [skipSpace_append hb, skipSpace_of_not hc]

theorem isSpace_iff (c : Char) : isSpace c = true ↔ c = ' ' ∨ c = '\n' ∨ c = '\t' ∨ c = '\r' := by
  simp [isSpace, or_assoc]

theorem EndsNumber.cons {c : Char} (hdigit : c.isDigit = false) (hc : c ≠ '.' ∧ c ≠ 'e' ∧ c ≠ 'E')
    (rest : List Char) : EndsNumber (c :: rest) := by
  rintro _ ⟨⟩
  exact ⟨hdigit, hc⟩

theorem EndsNumber.append {b rest : List Char} (hb : Blank b) (hrest : EndsNumber rest) :
    EndsNumber (b ++ rest) := by
  cases b with
  | nil => exact hrest
  | cons c b =>
    rcases (isSpace_iff c).mp (hb c List.mem_cons_self) with rfl | rfl | rfl | rfl
    all_goals exact EndsNumber.cons rfl (by decide) _

theorem readSource?_skipSpace (fuel : Nat) (cs : List Char) :
    readSource? fuel (skipSpace cs) = readSource? fuel cs := by
  cases fuel with
  | zero => rw [readSource?, readSource?]
  | succ fuel => rw [readSource?.eq_def, readSource?.eq_def]; simp only [skipSpace_skipSpace]

theorem readSource?_append {b : List Char} (hb : Blank b) (fuel : Nat) (cs : List Char) :
    readSource? fuel (b ++ cs) = readSource? fuel cs := by
  rw [← readSource?_skipSpace, skipSpace_append hb, readSource?_skipSpace]

theorem readItems?_skipSpace (fuel : Nat) (cs : List Char) :
    readItems? fuel (skipSpace cs) = readItems? fuel cs := by
  cases fuel with
  | zero => rw [readItems?, readItems?]
  | succ fuel => rw [readItems?, readItems?]; simp only [readSource?_skipSpace]

theorem readMembers?_skipSpace (fuel : Nat) (cs : List Char) :
    readMembers? fuel (skipSpace cs) = readMembers? fuel cs := by
  cases fuel with
  | zero => rw [readMembers?, readMembers?]
  | succ fuel => rw [readMembers?, readMembers?]; simp only [skipSpace_skipSpace]

theorem readQuoted?_spaced {s : String} {q b : List Char} (hq : QuotedText s q) (hb : Blank b) :
    ∃ ps, (∀ rest, readQuoted? (skipSpace (b ++ (q ++ rest))) = some (ps, rest)) ∧
      textOf? ps = some s := by
  obtain ⟨ps, hread, htext⟩ := readQuoted?_quotedText hq
  obtain ⟨-, body, -, -, rfl⟩ := hq
  refine ⟨ps, fun rest => ?_, htext⟩
  rw [skipSpace_append hb, ← hread rest]
  exact congrArg readQuoted? (skipSpace_of_not rfl _)

/-! ## Lists and objects -/

theorem readItems?_closed (fuel : Nat) (cs : List Char) : readItems? fuel (']' :: cs) = none := by
  have hclosed (fuel : Nat) : readSource? fuel (']' :: cs) = none := by
    cases fuel with
    | zero => rw [readSource?]
    | succ fuel =>
      have hspace : skipSpace (']' :: cs) = ']' :: cs := skipSpace_of_not rfl cs
      have hdigit : Char.isDigit ']' = false := rfl
      simp [readSource?, hspace, readNumber?, readWhole?, readDigits, hdigit]
  cases fuel with
  | zero => rw [readItems?]
  | succ fuel => rw [readItems?, hclosed]; rfl

theorem readMembers?_closed (fuel : Nat) (cs : List Char) :
    readMembers? fuel ('\x7d' :: cs) = none := by
  cases fuel with
  | zero => rw [readMembers?]
  | succ fuel =>
    have hspace : skipSpace ('\x7d' :: cs) = '\x7d' :: cs := skipSpace_of_not rfl cs
    simp [readMembers?, hspace, readQuoted?]

theorem readSource?_list {fuel : Nat} {cs rest : List Char} {items : List Source}
    (h : readItems? fuel cs = some (items, rest)) :
    readSource? (fuel + 1) ('[' :: cs) = some (.list items, rest) := by
  rw [← readItems?_skipSpace] at h
  rw [readSource?, skipSpace_of_not rfl]
  simp only
  split
  · rename_i heq
    rw [heq, readItems?_closed] at h
    exact absurd h (by simp)
  · rw [h]
    rfl

theorem readSource?_object {fuel : Nat} {cs rest : List Char} {members : List (List Piece × Source)}
    (h : readMembers? fuel cs = some (members, rest)) :
    readSource? (fuel + 1) ('\x7b' :: cs) = some (.object members, rest) := by
  rw [← readMembers?_skipSpace] at h
  rw [readSource?, skipSpace_of_not rfl]
  simp only
  split
  · rename_i heq
    rw [heq, readMembers?_closed] at h
    exact absurd h (by simp)
  · rw [h]
    rfl

/-! ## Reading a spelling -/

/-- The text is read as this part, whatever comes after it, and the part has the value. -/
structure ReadsAs (v : Value) (cs : List Char) (src : Source) : Prop where
  read : ∀ fuel rest, cs.length ≤ fuel → EndsNumber rest →
    ∃ left, readSource? fuel (cs ++ rest) = some (src, left) ∧ skipSpace left = skipSpace rest
  value : ∀ room, v.depth ≤ room → src.value? room = some v

structure ItemsReadAs (vs : List Value) (cs : List Char) (srcs : List Source) : Prop where
  read : ∀ fuel rest, cs.length < fuel → readItems? fuel (cs ++ ']' :: rest) = some (srcs, rest)
  values : ∀ room, itemsDepth vs ≤ room → itemValues? room srcs = some vs

structure MembersReadAs (ms : List (String × Value)) (cs : List Char)
    (srcs : List (List Piece × Source)) : Prop where
  read : ∀ fuel rest, cs.length < fuel →
    readMembers? fuel (cs ++ '\x7d' :: rest) = some (srcs, rest)
  values : ∀ room, membersDepth ms ≤ room → memberValues? room srcs = some ms

theorem ReadsAs.of_step {v : Value} {cs : List Char} {src : Source} (hcs : cs ≠ [])
    (hread : ∀ fuel rest, EndsNumber rest → readSource? (fuel + 1) (cs ++ rest) = some (src, rest))
    (hvalue : ∀ room, src.value? room = some v) : ReadsAs v cs src := by
  constructor
  · intro fuel rest hfuel hrest
    have hpos := List.length_pos_iff.mpr hcs
    obtain ⟨fuel, rfl⟩ := Nat.exists_eq_succ_of_ne_zero (n := fuel) (by omega)
    exact ⟨rest, hread fuel rest hrest, rfl⟩
  · intro room _
    exact hvalue room

theorem ReadsAs.null : ∃ src, ReadsAs .null ['n', 'u', 'l', 'l'] src := by
  refine ⟨.null, .of_step (by simp) (fun fuel rest _ => ?_) fun room => ?_⟩
  · rw [readSource?]; rfl
  · rw [Source.value?]

theorem ReadsAs.true : ∃ src, ReadsAs (.bool true) ['t', 'r', 'u', 'e'] src := by
  refine ⟨.bool Bool.true, .of_step (by simp) (fun fuel rest _ => ?_) fun room => ?_⟩
  · rw [readSource?]; rfl
  · rw [Source.value?]

theorem ReadsAs.false : ∃ src, ReadsAs (.bool false) ['f', 'a', 'l', 's', 'e'] src := by
  refine ⟨.bool Bool.false, .of_step (by simp) (fun fuel rest _ => ?_) fun room => ?_⟩
  · rw [readSource?]; rfl
  · rw [Source.value?]

theorem ReadsAs.number {n : Number} {cs : List Char} (hn : IsNumeral n cs) :
    ∃ src, ReadsAs (.number n) cs src := by
  obtain ⟨c, ds, rfl, hc⟩ := hn.head
  obtain ⟨l, hl, hread⟩ := hn
  refine ⟨.number l, .of_step (by simp) ?_ ?_⟩
  · intro fuel rest hrest
    have hother : ∀ d, d.isDigit = Bool.false → d ≠ '-' → c ≠ d := by
      rintro d hd hminus rfl
      simp_all
    have hspace : isSpace c = Bool.false := by
      apply Bool.eq_false_iff.mpr
      intro h
      rcases (isSpace_iff c).mp h with h | h | h | h
      all_goals exact hother _ rfl (by decide) h
    have hl := hread rest hrest
    rw [List.cons_append] at hl ⊢
    rw [readSource?, skipSpace_of_not hspace]
    -- No other part starts with a digit or a minus sign.
    split
    case h_7 => rw [hl]; rfl
    all_goals
      rename_i heq
      exact absurd (List.cons.inj heq).1 (hother _ rfl (by decide))
  · intro room
    rw [Source.value?, hl]
    rfl

theorem ReadsAs.text {s : String} {cs : List Char} (hs : QuotedText s cs) :
    ∃ src, ReadsAs (.text s) cs src := by
  obtain ⟨ps, hread, hvalue⟩ := readQuoted?_quotedText hs
  obtain ⟨-, body, -, -, rfl⟩ := hs
  refine ⟨.text ps, .of_step (by simp) ?_ ?_⟩
  · intro fuel rest _
    have hpieces := hread rest
    simp only [List.cons_append, readQuoted?] at hpieces ⊢
    rw [readSource?, skipSpace_of_not rfl]
    simp only [hpieces]
    rfl
  · intro room
    rw [Source.value?, hvalue]
    rfl

theorem ReadsAs.spaced {v : Value} {b cs b' : List Char} {src : Source} (hb : Blank b)
    (hv : ReadsAs v cs src) (hb' : Blank b') : ReadsAs v (b ++ cs ++ b') src := by
  refine ⟨fun fuel rest hfuel hrest => ?_, hv.value⟩
  simp only [List.length_append] at hfuel
  obtain ⟨left, hread, hleft⟩ := hv.read fuel (b' ++ rest) (by omega) (hrest.append hb')
  refine ⟨left, ?_, by rw [hleft, skipSpace_append hb']⟩
  rw [List.append_assoc, List.append_assoc, readSource?_append hb, hread]

theorem ReadsAs.emptyList {b : List Char} (hb : Blank b) :
    ∃ src, ReadsAs (.list []) ('[' :: b ++ [']']) src := by
  refine ⟨.list [], ?_, ?_⟩
  · intro fuel rest hfuel _
    obtain ⟨fuel, rfl⟩ := Nat.exists_eq_succ_of_ne_zero (n := fuel) (by simp at hfuel; omega)
    refine ⟨rest, ?_, rfl⟩
    simp [readSource?, skipSpace_of_not, skipSpace_token hb, isSpace]
  · intro room hroom
    rw [Value.depth] at hroom
    have hpos : room ≠ 0 := by omega
    simp [Source.value?, hpos, itemValues?]

theorem ReadsAs.emptyObject {b : List Char} (hb : Blank b) :
    ∃ src, ReadsAs (.object []) ('\x7b' :: b ++ ['\x7d']) src := by
  refine ⟨.object [], ?_, ?_⟩
  · intro fuel rest hfuel _
    obtain ⟨fuel, rfl⟩ := Nat.exists_eq_succ_of_ne_zero (n := fuel) (by simp at hfuel; omega)
    refine ⟨rest, ?_, rfl⟩
    simp [readSource?, skipSpace_of_not, skipSpace_token hb, isSpace]
  · intro room hroom
    rw [Value.depth] at hroom
    have hpos : room ≠ 0 := by omega
    simp [Source.value?, hpos, memberValues?]

theorem ItemsReadAs.list {vs : List Value} {cs : List Char} {srcs : List Source}
    (h : ItemsReadAs vs cs srcs) : ReadsAs (.list vs) ('[' :: cs ++ [']']) (.list srcs) := by
  constructor
  · intro fuel rest hfuel hrest
    simp at hfuel
    obtain ⟨fuel, rfl⟩ := Nat.exists_eq_succ_of_ne_zero (n := fuel) (by omega)
    refine ⟨rest, ?_, rfl⟩
    have hitems := h.read fuel rest (by omega)
    simpa using readSource?_list hitems
  · intro room hroom
    rw [Value.depth] at hroom
    have hpos : room ≠ 0 := by omega
    rw [Source.value?, if_neg hpos, h.values _ (by omega)]
    rfl

theorem ReadsAs.oneItem {v : Value} {cs : List Char} {src : Source} (h : ReadsAs v cs src) :
    ItemsReadAs [v] cs [src] := by
  constructor
  · intro fuel rest hfuel
    obtain ⟨fuel, rfl⟩ := Nat.exists_eq_succ_of_ne_zero (n := fuel) (by omega)
    obtain ⟨left, hread, hleft⟩ :=
      h.read fuel (']' :: rest) (by omega) (EndsNumber.cons rfl (by decide) _)
    rw [skipSpace_of_not rfl] at hleft
    simp [readItems?, hread, hleft]
  · intro room hroom
    have hvalue := h.value room (by simp [itemsDepth] at hroom; omega)
    simp [itemValues?, hvalue]

theorem ItemsReadAs.cons {v : Value} {vs : List Value} {cs ds : List Char} {src : Source}
    {srcs : List Source} (h : ReadsAs v cs src) (hs : ItemsReadAs vs ds srcs) :
    ItemsReadAs (v :: vs) (cs ++ ',' :: ds) (src :: srcs) := by
  constructor
  · intro fuel rest hfuel
    obtain ⟨fuel, rfl⟩ := Nat.exists_eq_succ_of_ne_zero (n := fuel) (by omega)
    simp at hfuel
    obtain ⟨left, hread, hleft⟩ :=
      h.read fuel (',' :: (ds ++ ']' :: rest)) (by omega) (EndsNumber.cons rfl (by decide) _)
    rw [skipSpace_of_not rfl] at hleft
    have hitems := hs.read fuel rest (by omega)
    simp [readItems?, hread, hleft, hitems]
  · intro room hroom
    rw [itemsDepth] at hroom
    have hvalue := h.value room (by omega)
    have hvalues := hs.values room (by omega)
    simp [itemValues?, hvalue, hvalues]

theorem MembersReadAs.object {ms : List (String × Value)} {cs : List Char}
    {srcs : List (List Piece × Source)} (h : MembersReadAs ms cs srcs) :
    ReadsAs (.object ms) ('\x7b' :: cs ++ ['\x7d']) (.object srcs) := by
  constructor
  · intro fuel rest hfuel hrest
    simp at hfuel
    obtain ⟨fuel, rfl⟩ := Nat.exists_eq_succ_of_ne_zero (n := fuel) (by omega)
    refine ⟨rest, ?_, rfl⟩
    have hmembers := h.read fuel rest (by omega)
    simpa using readSource?_object hmembers
  · intro room hroom
    rw [Value.depth] at hroom
    have hpos : room ≠ 0 := by omega
    rw [Source.value?, if_neg hpos, h.values _ (by omega)]
    rfl

theorem ReadsAs.oneMember {name : String} {v : Value} {q b b' cs : List Char} {src : Source}
    (hname : QuotedText name q) (hb : Blank b) (hb' : Blank b') (h : ReadsAs v cs src) :
    ∃ srcs, MembersReadAs [(name, v)] (b ++ q ++ b' ++ ':' :: cs) srcs := by
  obtain ⟨ps, hname, htext⟩ := readQuoted?_spaced hname hb
  refine ⟨[(ps, src)], ?_, ?_⟩
  · intro fuel rest hfuel
    obtain ⟨fuel, rfl⟩ := Nat.exists_eq_succ_of_ne_zero (n := fuel) (by omega)
    simp at hfuel
    obtain ⟨left, hread, hleft⟩ :=
      h.read fuel ('\x7d' :: rest) (by omega) (EndsNumber.cons rfl (by decide) _)
    rw [skipSpace_of_not rfl] at hleft
    simp [readMembers?, hname, skipSpace_token (c := ':') hb' rfl, hread, hleft]
  · intro room hroom
    have hvalue := h.value room (by simp [membersDepth] at hroom; omega)
    simp [memberValues?, htext, hvalue]

theorem MembersReadAs.cons {name : String} {v : Value} {ms : List (String × Value)}
    {q b b' cs ds : List Char} {src : Source} {srcs : List (List Piece × Source)}
    (hname : QuotedText name q) (hb : Blank b) (hb' : Blank b') (h : ReadsAs v cs src)
    (hs : MembersReadAs ms ds srcs) :
    ∃ srcs, MembersReadAs ((name, v) :: ms) (b ++ q ++ b' ++ ':' :: cs ++ ',' :: ds) srcs := by
  obtain ⟨ps, hname, htext⟩ := readQuoted?_spaced hname hb
  refine ⟨(ps, src) :: srcs, ?_, ?_⟩
  · intro fuel rest hfuel
    obtain ⟨fuel, rfl⟩ := Nat.exists_eq_succ_of_ne_zero (n := fuel) (by omega)
    simp at hfuel
    obtain ⟨left, hread, hleft⟩ :=
      h.read fuel (',' :: (ds ++ '\x7d' :: rest)) (by omega) (EndsNumber.cons rfl (by decide) _)
    rw [skipSpace_of_not rfl] at hleft
    have hmembers := hs.read fuel rest (by omega)
    simp [readMembers?, hname, skipSpace_token (c := ':') hb' rfl, hread, hleft, hmembers]
  · intro room hroom
    rw [membersDepth] at hroom
    have hvalue := h.value room (by omega)
    have hvalues := hs.values room (by omega)
    simp [memberValues?, htext, hvalue, hvalues]

mutual

theorem Spelled.readsAs {v : Value} {cs : List Char} : Spelled v cs → ∃ src, ReadsAs v cs src
  | .null => ReadsAs.null
  | .true => ReadsAs.true
  | .false => ReadsAs.false
  | .number hn => ReadsAs.number hn
  | .text hs => ReadsAs.text hs
  | .emptyList hb => ReadsAs.emptyList hb
  | .list hvs => by
    obtain ⟨srcs, h⟩ := hvs.readAs
    exact ⟨.list srcs, h.list⟩
  | .emptyObject hb => ReadsAs.emptyObject hb
  | .object hms => by
    obtain ⟨srcs, h⟩ := hms.readAs
    exact ⟨.object srcs, h.object⟩
  | .spaced hb hv hb' => by
    obtain ⟨src, h⟩ := hv.readsAs
    exact ⟨src, h.spaced hb hb'⟩

theorem SpelledItems.readAs {vs : List Value} {cs : List Char} :
    SpelledItems vs cs → ∃ srcs, ItemsReadAs vs cs srcs
  | .one hv => by
    obtain ⟨src, h⟩ := hv.readsAs
    exact ⟨[src], h.oneItem⟩
  | .cons hv hvs => by
    obtain ⟨src, h⟩ := hv.readsAs
    obtain ⟨srcs, hs⟩ := hvs.readAs
    exact ⟨src :: srcs, hs.cons h⟩

theorem SpelledMembers.readAs {ms : List (String × Value)} {cs : List Char} :
    SpelledMembers ms cs → ∃ srcs, MembersReadAs ms cs srcs
  | .one hname hb hb' hv => by
    obtain ⟨src, h⟩ := hv.readsAs
    exact h.oneMember hname hb hb'
  | .cons hname hb hb' hv hms => by
    obtain ⟨src, h⟩ := hv.readsAs
    obtain ⟨srcs, hs⟩ := hms.readAs
    exact hs.cons hname hb hb' h

end

theorem Spelled.ofChars? {v : Value} {cs : List Char} (h : Spelled v cs) :
    ∃ src, Source.ofChars? cs = some src ∧ ∀ room, v.depth ≤ room → src.value? room = some v := by
  obtain ⟨src, hsrc⟩ := h.readsAs
  have hnil : EndsNumber [] := by simp [EndsNumber]
  obtain ⟨left, hread, hleft⟩ := hsrc.read (cs.length + 1) [] (by omega) hnil
  have hend : skipSpace [] = [] := rfl
  rw [List.append_nil] at hread
  exact ⟨src, by simp [Source.ofChars?, hread, hleft, hend], hsrc.value⟩

theorem Value.ofString?_spelled {v : Value} {s : String} (h : Spelled v s.toList)
    (hdepth : v.depth ≤ maxNesting) : Value.ofString? s = some v := by
  obtain ⟨src, hsrc, hvalue⟩ := h.ofChars?
  have hsource : Source.ofString? s = some src := hsrc
  rw [Value.ofString?, hsource]
  exact hvalue _ hdepth

end CalendarRules.Json
