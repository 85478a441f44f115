import CalendarRules.Proofs.Json.Spelling

/-!
# What is written is read back

Both ways to write a value spell it, so a reader gets the same value from either. A number needs a
text that is read as that number, which whole numbers in 64 bits have.
-/

namespace CalendarRules.Json

mutual

def Value.numbers : Value → List Number
  | .number n => [n]
  | .list vs => itemNumbers vs
  | .object ms => memberNumbers ms
  | _ => []

def itemNumbers : List Value → List Number
  | [] => []
  | v :: vs => v.numbers ++ itemNumbers vs

def memberNumbers : List (String × Value) → List Number
  | [] => []
  | (_, v) :: ms => v.numbers ++ memberNumbers ms

end

theorem mem_itemNumbers {n : Number} {vs : List Value} :
    n ∈ itemNumbers vs ↔ ∃ v ∈ vs, n ∈ v.numbers := by
  induction vs with
  | nil => simp [itemNumbers]
  | cons v vs ih => simp [itemNumbers, ih]

theorem mem_memberNumbers {n : Number} {ms : List (String × Value)} :
    n ∈ memberNumbers ms ↔ ∃ m ∈ ms, n ∈ m.2.numbers := by
  induction ms with
  | nil => simp [memberNumbers]
  | cons m ms ih => simp [memberNumbers, ih]

theorem itemsDepth_le {k : Nat} {vs : List Value} :
    itemsDepth vs ≤ k ↔ ∀ v ∈ vs, v.depth ≤ k := by
  induction vs with
  | nil => simp [itemsDepth]
  | cons v vs ih => rw [itemsDepth, Nat.max_le, ih, List.forall_mem_cons]

theorem membersDepth_le {k : Nat} {ms : List (String × Value)} :
    membersDepth ms ≤ k ↔ ∀ m ∈ ms, m.2.depth ≤ k := by
  induction ms with
  | nil => simp [membersDepth]
  | cons m ms ih => rw [membersDepth, Nat.max_le, ih, List.forall_mem_cons]

theorem blank_newLine (depth : Nat) : Blank (newLine depth) := by
  intro c hc
  rcases List.mem_cons.mp hc with rfl | hc
  · rfl
  · rw [List.eq_of_mem_replicate hc]
    rfl

theorem blank_nil : Blank [] := by simp [Blank]

theorem blank_space : Blank [' '] := by simp [Blank, isSpace]

@[elab_as_elim]
theorem Value.induction {P : Value → Prop} (null : P .null) (bool : ∀ b, P (.bool b))
    (number : ∀ n, P (.number n)) (text : ∀ s, P (.text s))
    (list : ∀ vs, (∀ v ∈ vs, P v) → P (.list vs))
    (object : ∀ ms, (∀ m ∈ ms, P m.2) → P (.object ms)) : ∀ v, P v
  | .null => null
  | .bool b => bool b
  | .number n => number n
  | .text s => text s
  | .list vs => list vs fun v _ => induction null bool number text list object v
  | .object ms => object ms fun m _ => induction null bool number text list object m.2
termination_by v => sizeOf v
decreasing_by
  · have hsize := List.sizeOf_lt_of_mem ‹v ∈ vs›
    simp
    omega
  · have hsize := List.sizeOf_lt_of_mem ‹m ∈ ms›
    cases m
    simp at hsize ⊢
    omega

/-- Each number of the value is read back from its own text. -/
def Value.Printable (v : Value) : Prop := ∀ n ∈ v.numbers, IsNumeral n n.text.toList

theorem Value.Printable.item {v : Value} {vs : List Value} (h : (Value.list vs).Printable)
    (hv : v ∈ vs) : v.Printable :=
  fun n hn => h n (by rw [numbers]; exact mem_itemNumbers.mpr ⟨v, hv, hn⟩)

theorem Value.Printable.member {m : String × Value} {ms : List (String × Value)}
    (h : (Value.object ms).Printable) (hm : m ∈ ms) : m.2.Printable :=
  fun n hn => h n (by rw [numbers]; exact mem_memberNumbers.mpr ⟨m, hm, hn⟩)

/-! ## On one line -/

theorem spelledItems_compact {vs : List Value} (hne : vs ≠ [])
    (hvs : ∀ v ∈ vs, Spelled v v.compact) : SpelledItems vs (compactItems vs) := by
  induction vs with
  | nil => exact absurd rfl hne
  | cons v vs ih =>
    have hv := hvs v List.mem_cons_self
    cases vs with
    | nil => rw [compactItems]; exact .one hv
    | cons w vs =>
      rw [compactItems]
      · exact .cons hv (ih (by simp) fun u hu => hvs u (List.mem_cons_of_mem _ hu))
      · simp

theorem spelledMembers_compact {ms : List (String × Value)} (hne : ms ≠ [])
    (hms : ∀ m ∈ ms, Spelled m.2 m.2.compact) : SpelledMembers ms (compactMembers ms) := by
  induction ms with
  | nil => exact absurd rfl hne
  | cons m ms ih =>
    have hm := hms m List.mem_cons_self
    cases ms with
    | nil =>
      simpa [compactMembers] using
        SpelledMembers.one (quotedText_writeText m.1) blank_nil blank_nil hm
    | cons m' ms =>
      have hrest := ih (by simp) fun u hu => hms u (List.mem_cons_of_mem _ hu)
      simpa [compactMembers] using
        SpelledMembers.cons (quotedText_writeText m.1) blank_nil blank_nil hm hrest

theorem Value.spelled_compact (v : Value) : v.Printable → Spelled v v.compact := by
  induction v using Value.induction with
  | null => exact fun _ => .null
  | bool b =>
    cases b with
    | false => exact fun _ => .false
    | true => exact fun _ => .true
  | number n => exact fun h => .number (h n (by simp [numbers]))
  | text s => exact fun _ => .text (quotedText_writeText s)
  | list vs ih =>
    intro h
    cases vs with
    | nil => exact .emptyList blank_nil
    | cons v vs => exact .list (spelledItems_compact (by simp) fun u hu => ih u hu (h.item hu))
  | object ms ih =>
    intro h
    cases ms with
    | nil => exact .emptyObject blank_nil
    | cons m ms =>
      exact .object (spelledMembers_compact (by simp) fun u hu => ih u hu (h.member hu))

/-! ## Over several lines -/

theorem spelledItems_pretty {depth : Nat} {b : List Char} (hb : Blank b) {vs : List Value}
    (hne : vs ≠ []) (hvs : ∀ v ∈ vs, Spelled v (v.pretty depth)) :
    SpelledItems vs (prettyItems depth vs ++ b) := by
  induction vs with
  | nil => exact absurd rfl hne
  | cons v vs ih =>
    have hv := hvs v List.mem_cons_self
    cases vs with
    | nil => rw [prettyItems]; exact .one (.spaced (blank_newLine depth) hv hb)
    | cons w vs =>
      have hrest := ih (by simp) fun u hu => hvs u (List.mem_cons_of_mem _ hu)
      have hv := Spelled.spaced (blank_newLine depth) hv blank_nil
      simpa [prettyItems] using SpelledItems.cons hv hrest

theorem spelledMembers_pretty {depth : Nat} {b : List Char} (hb : Blank b)
    {ms : List (String × Value)} (hne : ms ≠ [])
    (hms : ∀ m ∈ ms, Spelled m.2 (m.2.pretty depth)) :
    SpelledMembers ms (prettyMembers depth ms ++ b) := by
  induction ms with
  | nil => exact absurd rfl hne
  | cons m ms ih =>
    have hm := hms m List.mem_cons_self
    cases ms with
    | nil =>
      have hm := Spelled.spaced blank_space hm hb
      simpa [prettyMembers] using
        SpelledMembers.one (quotedText_writeText m.1) (blank_newLine depth) blank_nil hm
    | cons m' ms =>
      have hrest := ih (by simp) fun u hu => hms u (List.mem_cons_of_mem _ hu)
      have hm := Spelled.spaced blank_space hm blank_nil
      simpa [prettyMembers] using
        SpelledMembers.cons (quotedText_writeText m.1) (blank_newLine depth) blank_nil hm hrest

theorem Value.spelled_pretty (v : Value) : v.Printable → ∀ depth, Spelled v (v.pretty depth) := by
  induction v using Value.induction with
  | null => exact fun _ _ => .null
  | bool b =>
    cases b with
    | false => exact fun _ _ => .false
    | true => exact fun _ _ => .true
  | number n => exact fun h _ => .number (h n (by simp [numbers]))
  | text s => exact fun _ _ => .text (quotedText_writeText s)
  | list vs ih =>
    intro h depth
    cases vs with
    | nil => exact .emptyList blank_nil
    | cons v vs =>
      exact .list (spelledItems_pretty (blank_newLine depth) (by simp)
        fun u hu => ih u hu (h.item hu) (depth + 1))
  | object ms ih =>
    intro h depth
    cases ms with
    | nil => exact .emptyObject blank_nil
    | cons m ms =>
      exact .object (spelledMembers_pretty (blank_newLine depth) (by simp)
        fun u hu => ih u hu (h.member hu) (depth + 1))

/-! ## Reading back -/

/-- The value is read back from its text, even with `room` for nesting only. -/
structure Value.Prints (room : Nat) (v : Value) : Prop where
  printable : v.Printable
  depth : v.depth ≤ room

theorem Value.ofString?_page {v : Value} (h : v.Prints maxNesting) : ofString? v.page = some v := by
  refine ofString?_spelled ?_ h.depth
  rw [page, String.toList_ofList]
  exact v.spelled_pretty h.printable 0

namespace Value.Prints

variable {room : Nat}

theorem mono {more : Nat} {v : Value} (h : v.Prints room) (hle : room ≤ more) : v.Prints more :=
  ⟨h.printable, Nat.le_trans h.depth hle⟩

theorem text (s : String) : (Value.text s).Prints room :=
  ⟨by simp [Printable, numbers], by simp [Value.depth]⟩

theorem bool (b : Bool) : (Value.bool b).Prints room :=
  ⟨by simp [Printable, numbers], by simp [Value.depth]⟩

theorem ofNat {n : Nat} (hn : n ≤ maxUnsigned) : (Value.ofNat n).Prints room := by
  have hfits : Fits64 n := ⟨by omega, by omega⟩
  refine ⟨?_, by simp [Value.ofNat, Value.depth]⟩
  intro m hm
  rw [Value.ofNat, numbers, List.mem_singleton] at hm
  rw [hm]
  exact isNumeral_toString hfits

theorem list {vs : List Value} (h : ∀ v ∈ vs, v.Prints room) :
    (Value.list vs).Prints (room + 1) := by
  constructor
  · intro n hn
    rw [numbers] at hn
    obtain ⟨v, hv, hn⟩ := mem_itemNumbers.mp hn
    exact (h v hv).printable n hn
  · have hdepth := itemsDepth_le.mpr fun v hv => (h v hv).depth
    rw [Value.depth]
    omega

theorem object {ms : List (String × Value)} (h : ∀ m ∈ ms, m.2.Prints room) :
    (Value.object ms).Prints (room + 1) := by
  constructor
  · intro n hn
    rw [numbers] at hn
    obtain ⟨m, hm, hn⟩ := mem_memberNumbers.mp hn
    exact (h m hm).printable n hn
  · have hdepth := membersDepth_le.mpr fun m hm => (h m hm).depth
    rw [Value.depth]
    omega

end Value.Prints

end CalendarRules.Json
