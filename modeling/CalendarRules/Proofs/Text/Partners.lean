import CalendarRules.Text.Lower

/-!
# Letters and their lower-case partners

What is known of the table of letters: where partners lie, that no partner has a partner of its own,
and that no partner is a quote mark.
-/

namespace CalendarRules.Text

/-! ## ASCII -/

theorem toNat_toLower (c : Char) :
    c.toLower.toNat = if 65 ≤ c.toNat ∧ c.toNat ≤ 90 then c.toNat + 32 else c.toNat := by
  unfold Char.toLower
  split
  · rename_i h
    have h90 : c.toNat ≤ 90 := h.2
    rw [if_pos ⟨h.1, h90⟩, Char.toNat_mk, UInt32.toNat_add]
    simp
    omega
  · rename_i h
    exact (if_neg h).symm

theorem toLower_of_beyond {c : Char} (hc : 0x80 ≤ c.toNat) : c.toLower = c := by
  rw [← Char.toNat_inj, toNat_toLower, if_neg (by omega)]

theorem lowerChar_ascii {c : Char} (hc : c.toNat < 0x80) : lowerChar c = [c.toLower] := by
  unfold lowerChar
  rw [if_pos hc]

theorem lowerChar_toLower {c : Char} (hc : c.toNat < 0x80) : lowerChar c.toLower = [c.toLower] := by
  have hlower := toNat_toLower c
  have htwice : c.toLower.toLower = c.toLower := by
    rw [← Char.toNat_inj, toNat_toLower c.toLower, if_neg (by split at hlower <;> omega)]
  rw [lowerChar_ascii (by split at hlower <;> omega), htwice]

/-! ## Runs of letters -/

theorem lowerRuns_partners : ∀ run ∈ lowerRuns,
    (run.last < 0x80 ∧ 0 ≤ run.shift) ∨ (0x80 : Int) ≤ run.first + run.shift ∨
      run.first = 0x212a ∧ run.last = 0x212a ∧ run.shift = -8383 := by
  -- Only the letters of ASCII and the Kelvin sign have a partner within ASCII.
  decide +kernel

theorem bounds_of_covers {run : ShiftRun} {n : Nat} (h : run.covers n = true) :
    run.first ≤ n ∧ n ≤ run.last := by
  simp only [ShiftRun.covers, Bool.and_eq_true, decide_eq_true_eq] at h
  exact h.1

theorem target_of_covers {run : ShiftRun} (hrun : run ∈ lowerRuns) {n : Nat}
    (hcovers : run.covers n = true) (hn : 0x80 ≤ n) :
    0x80 ≤ run.target n ∨ run.target n = 0x6b := by
  have hbounds := bounds_of_covers hcovers
  unfold ShiftRun.target
  rcases lowerRuns_partners run hrun with ⟨hlast, -⟩ | hshift | ⟨hfirst, hlast, hshift⟩
  · omega
  · omega
  · omega

theorem toNat_ofNat_cases (n : Nat) : (Char.ofNat n).toNat = n ∨ (Char.ofNat n).toNat = 0 := by
  unfold Char.ofNat
  by_cases hvalid : n.isValidChar
  · rw [dif_pos hvalid]
    exact .inl rfl
  · -- A number that is no code point stands for the null character.
    rw [dif_neg hvalid]
    exact .inr rfl

/-! ## No partner has a partner -/

/-- The union of sets of code points. A set is a number with a bit for each of its members, so that
the whole table of letters is checked by one conjunction. -/
def unionBits (sets : List Nat) : Nat := sets.foldr (· ||| ·) 0

theorem testBit_unionBits {sets : List Nat} {set n : Nat} (hset : set ∈ sets)
    (hn : set.testBit n = true) : (unionBits sets).testBit n = true := by
  induction sets with
  | nil => cases hset
  | cons s sets ih =>
    have hcons : unionBits (s :: sets) = s ||| unionBits sets := rfl
    rw [hcons, Nat.testBit_or, Bool.or_eq_true]
    rcases List.mem_cons.mp hset with rfl | hset
    · exact .inl hn
    · exact .inr (ih hset)

namespace ShiftRun

/-- The set of what the run covers, moved so that it begins at `start`. -/
def bitsFrom (run : ShiftRun) (start : Nat) : Nat :=
  unionBits ((List.range ((run.last - run.first) / run.step + 1)).map fun i => 1 <<< (run.step * i))
    <<< start

theorem testBit_bitsFrom {run : ShiftRun} {n : Nat} (hcovers : run.covers n = true) (start : Nat) :
    (run.bitsFrom start).testBit (start + (n - run.first)) = true := by
  simp only [covers, Bool.and_eq_true, decide_eq_true_eq, beq_iff_eq] at hcovers
  obtain ⟨⟨hfirst, hlast⟩, hstep⟩ := hcovers
  have hplace : run.step * ((n - run.first) / run.step) = n - run.first :=
    Nat.mul_div_cancel' (Nat.dvd_of_mod_eq_zero hstep)
  have hcount : (n - run.first) / run.step < (run.last - run.first) / run.step + 1 :=
    Nat.lt_succ_of_le (Nat.div_le_div_right (by omega))
  have hmem : 1 <<< (n - run.first) ∈
      (List.range ((run.last - run.first) / run.step + 1)).map fun i => 1 <<< (run.step * i) :=
    List.mem_map.mpr ⟨_, List.mem_range.mpr hcount, by rw [hplace]⟩
  have hbit : (1 <<< (n - run.first)).testBit (n - run.first) = true := by
    rw [Nat.one_shiftLeft, Nat.testBit_two_pow_self]
  rw [bitsFrom, Nat.testBit_shiftLeft, Nat.add_sub_cancel_left, testBit_unionBits hmem hbit]
  simp

end ShiftRun

/-- The code points that are not their own lower-case form. -/
def lowerableBits : Nat :=
  unionBits (1 <<< 0x130 :: lowerRuns.map fun run => run.bitsFrom run.first)

def partnerBits : Nat := unionBits (lowerRuns.map fun run => run.bitsFrom (run.target run.first))

/-- The code points of the quote marks. -/
def quoteMarks : List Nat := [0x22, 0x27, 0x201c, 0x201d, 0x2018, 0x2019]

theorem partnerBits_apart :
    partnerBits &&& (lowerableBits ||| unionBits (quoteMarks.map (1 <<< ·))) = 0 := by
  decide +kernel

theorem testBit_lowerableBits {run : ShiftRun} (hrun : run ∈ lowerRuns) {n : Nat}
    (hcovers : run.covers n = true) : lowerableBits.testBit n = true := by
  have hbit := ShiftRun.testBit_bitsFrom hcovers run.first
  rw [Nat.add_sub_cancel' (bounds_of_covers hcovers).1] at hbit
  exact testBit_unionBits (.tail _ (List.mem_map_of_mem hrun)) hbit

theorem testBit_partnerBits {run : ShiftRun} (hrun : run ∈ lowerRuns) {n : Nat}
    (hcovers : run.covers n = true) : partnerBits.testBit (run.target n) = true := by
  have hfirst := (bounds_of_covers hcovers).1
  have htarget : run.target run.first + (n - run.first) = run.target n := by
    have hpartners := lowerRuns_partners run hrun
    unfold ShiftRun.target
    omega
  rw [← htarget]
  exact testBit_unionBits (List.mem_map_of_mem hrun) (ShiftRun.testBit_bitsFrom hcovers _)

theorem target_apart {run : ShiftRun} (hrun : run ∈ lowerRuns) {n : Nat}
    (hcovers : run.covers n = true) :
    lowerableBits.testBit (run.target n) = false ∧ run.target n ∉ quoteMarks := by
  have hapart := congrArg (Nat.testBit · (run.target n)) partnerBits_apart
  simp only [Nat.testBit_and, Nat.testBit_or, testBit_partnerBits hrun hcovers, Bool.true_and,
    Nat.zero_testBit, Bool.or_eq_false_iff] at hapart
  refine ⟨hapart.1, fun hquote => ?_⟩
  have hself : (1 <<< run.target n).testBit (run.target n) = true := by
    rw [Nat.one_shiftLeft, Nat.testBit_two_pow_self]
  have hbit := testBit_unionBits (List.mem_map_of_mem (f := (1 <<< ·)) hquote) hself
  rw [hbit] at hapart
  cases hapart.2

theorem lowerChar_of_not_lowerable {c : Char} (hc : 0x80 ≤ c.toNat)
    (h : lowerableBits.testBit c.toNat = false) : lowerChar c = [c] := by
  have hdotted : ¬(c.toNat == 0x130) = true := by
    intro hdotted
    have hbit : lowerableBits.testBit 0x130 = true :=
      testBit_unionBits List.mem_cons_self (by decide)
    rw [beq_iff_eq.mp hdotted, hbit] at h
    cases h
  have hnone : lowerRuns.find? (·.covers c.toNat) = none := by
    refine List.find?_eq_none.mpr fun run hrun hcovers => ?_
    rw [testBit_lowerableBits hrun hcovers] at h
    cases h
  unfold lowerChar
  rw [if_neg (by omega), if_neg hdotted, hnone]

theorem lowerChar_target {run : ShiftRun} (hrun : run ∈ lowerRuns) {n : Nat} (hn : 0x80 ≤ n)
    (hcovers : run.covers n = true) :
    lowerChar (Char.ofNat (run.target n)) = [Char.ofNat (run.target n)] := by
  rcases toNat_ofNat_cases (run.target n) with hsame | hzero
  · rcases target_of_covers hrun hcovers hn with hbeyond | hkelvin
    · refine lowerChar_of_not_lowerable (by omega) ?_
      rw [hsame]
      exact (target_apart hrun hcovers).1
    · rw [hkelvin]
      decide
  · have hnull : Char.ofNat (run.target n) = '\x00' := Char.toNat_inj.mp hzero
    rw [hnull]
    decide

/-- The quote marks, the small sigmas and the parts of the dotted capital I in lower case. -/
def fixedChars : List Char :=
  ['"', '\'', '“', '”', '‘', '’', 'σ', 'ς', 'i', Char.ofNat 0x307]

theorem lowerChar_fixed {c : Char} (hc : c ∈ fixedChars) : lowerChar c = [c] := by
  have hall : fixedChars.all (fun c => lowerChar c == [c]) = true := by decide +kernel
  exact beq_iff_eq.mp (List.all_eq_true.mp hall c hc)

end CalendarRules.Text
