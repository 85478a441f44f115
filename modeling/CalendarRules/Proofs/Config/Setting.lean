import CalendarRules.Config.Setting
import CalendarRules.Proofs.Config.Bounds
import CalendarRules.Proofs.Text.Lower
import CalendarRules.Proofs.Toml.Number
import Mathlib.Tactic.SplitIfs

/-!
# The settings that can be stored

A key and a value give a setting that has a place in the file: a flag in one of eight words, in any
letter case, or a number of 64 bits with a sign, perhaps after a plus sign.
-/

namespace CalendarRules

open Toml

namespace Setting

/-! ## What is accepted -/

def flagWords : Bool → List String
  | true => ["true", "yes", "1", "on"]
  | false => ["false", "no", "0", "off"]

/-- The value is one of the words, whatever the case of its letters. -/
def spells (value : String) (words : List String) : Bool :=
  words.any fun word => value.toList.map Char.toLower == word.toList

/-- The digits of a number, which a plus sign may go before. -/
def digitsOf (value : String) : List Char :=
  match value.toList with
  | '+' :: cs => cs
  | cs => cs

/-- The number of one digit or more. -/
def numberOf? (digits : List Char) : Option Nat :=
  if digits ≠ [] ∧ digits.all Char.isDigit = true then some (Nat.ofDigitChars 10 digits 0) else none

/-- The largest number that has a place in the file. -/
def maxLimit : Nat := 0x7fffffffffffffff

/-- The setting that a key and a value are accepted as. -/
def accepted? (key value : String) : Option Setting :=
  if key = "output.color" then
    if spells value (flagWords true) then some (.colour true)
    else if spells value (flagWords false) then some (.colour false)
    else none
  else if key = "preview.limit" then
    match numberOf? (digitsOf value) with
    | some n => if n ≤ maxLimit then some (.limit n) else none
    | none => none
  else none

/-- The setting has a place in the file. -/
def Fits : Setting → Prop
  | .colour _ => True
  | .limit n => n ≤ maxLimit

/-! ## Flags -/

theorem isOwn_of_flagWords (on : Bool) :
    ∀ word ∈ flagWords on, ∀ c ∈ word.toList, Text.IsOwn c := by
  have hall : (flagWords on).all fun word => word.toList.all fun c => decide (Text.IsOwn c) := by
    cases on <;> decide
  simpa only [List.all_eq_true, decide_eq_true_eq] using hall

theorem lower_mem_iff (on : Bool) (value : String) :
    Text.lower value ∈ flagWords on ↔ spells value (flagWords on) = true := by
  unfold spells
  rw [List.any_eq_true]
  constructor
  · intro h
    refine ⟨Text.lower value, h, ?_⟩
    rw [beq_iff_eq]
    refine (Text.lower_eq_iff (isOwn_of_flagWords on _ h) value).mp ?_
    rw [String.ofList_toList]
  · rintro ⟨word, hword, hvalue⟩
    have hlower :=
      (Text.lower_eq_iff (isOwn_of_flagWords on _ hword) value).mpr (beq_iff_eq.mp hvalue)
    rw [hlower, String.ofList_toList]
    exact hword

theorem readFlag?_eq (value : String) :
    readFlag? value =
      if spells value (flagWords true) then some true
      else if spells value (flagWords false) then some false
      else none := by
  simp only [← lower_mem_iff]
  rfl

/-! ## Numbers -/

theorem ofDigits_filterMap {digits : List Char} (h : ∀ c ∈ digits, c.isDigit = true) :
    ofDigits 10 (digits.filterMap (digitValue? 10)) = Nat.ofDigitChars 10 digits 0 := by
  have hvalues : digits.filterMap (digitValue? 10) = digits.map fun c => c.toNat - '0'.toNat := by
    rw [← List.filterMap_eq_map]
    exact List.filterMap_congr fun c hc => digitValue?_of_isDigit (h c hc)
  rw [hvalues, ofDigits_map]

theorem readCount?_eq (value : String) :
    readCount? value =
      (numberOf? (digitsOf value)).bind fun n =>
        if n ≤ 0xffffffffffffffff then some n else none := by
  have hread : readCount? value =
      if (digitsOf value).isEmpty || !(digitsOf value).all Char.isDigit then none
      else
        let n := ofDigits 10 ((digitsOf value).filterMap (digitValue? 10))
        if n ≤ 0xffffffffffffffff then some n else none := rfl
  rw [hread]
  by_cases h : digitsOf value ≠ [] ∧ (digitsOf value).all Char.isDigit = true
  · have hrefused : ((digitsOf value).isEmpty || !(digitsOf value).all Char.isDigit) = false := by
      simpa using h
    simp only [hrefused, Bool.false_eq_true, if_false,
      ofDigits_filterMap (List.all_eq_true.mp h.2)]
    rw [numberOf?, if_pos h]
    rfl
  · have hrefused : ((digitsOf value).isEmpty || !(digitsOf value).all Char.isDigit) = true := by
      by_cases hempty : digitsOf value = []
      · simp [hempty]
      · simpa [hempty] using h
    rw [hrefused, numberOf?, if_neg h]
    rfl

/-! ## Keys -/

theorem accepted?_colour (value : String) :
    accepted? "output.color" value = (readFlag? value).map .colour := by
  rw [readFlag?_eq, accepted?, if_pos rfl]
  split_ifs <;> rfl

theorem accepted?_limit (value : String) :
    accepted? "preview.limit" value =
      (readCount? value).bind fun n => if n ≤ maxLimit then some (.limit n) else none := by
  rw [readCount?_eq, accepted?, if_neg (by decide), if_pos rfl]
  cases numberOf? (digitsOf value) with
  | none => rfl
  | some n =>
    show (if n ≤ maxLimit then some (limit n) else none) = Option.bind (if _ then _ else _) _
    by_cases h : n ≤ maxLimit
    · have hsmall : n ≤ 0xffffffffffffffff := Nat.le_trans h (by decide)
      rw [if_pos h, if_pos hsmall, Option.bind_some, if_pos h]
    · rw [if_neg h]
      split_ifs with hsmall
      · rw [Option.bind_some, if_neg h]
      · rfl

theorem accepted?_eq_some_iff (key value : String) (setting : Setting) :
    accepted? key value = some setting ↔ ofKey key value = .ok setting ∧ setting.Fits := by
  by_cases hcolour : key = "output.color"
  · subst hcolour
    rw [accepted?_colour]
    unfold ofKey
    rw [if_pos rfl]
    cases readFlag? value with
    | none => simp
    | some on =>
      simp only [Option.map_some, Option.some.injEq, Except.ok.injEq]
      constructor
      · rintro rfl
        exact ⟨rfl, trivial⟩
      · exact fun h => h.1
  · by_cases hlimit : key = "preview.limit"
    · subst hlimit
      rw [accepted?_limit]
      unfold ofKey
      rw [if_neg (by decide), if_pos rfl]
      cases readCount? value with
      | none => simp
      | some n =>
        simp only [Option.bind_some, Except.ok.injEq]
        constructor
        · intro h
          split_ifs at h with hfits
          cases h
          exact ⟨rfl, hfits⟩
        · rintro ⟨rfl, hfits⟩
          exact if_pos hfits
    · simp [accepted?, ofKey, hcolour, hlimit]

end Setting

/-! ## What becomes of a configuration -/

namespace Config

theorem Storable.put {c : Config} (hc : c.Storable) {setting : Setting} (h : setting.Fits) :
    (c.put setting).Storable := by
  cases setting with
  | colour on => exact ⟨hc.limit, hc.rules⟩
  | limit n =>
    refine ⟨?_, hc.rules⟩
    rintro _ ⟨⟩
    exact Int.ofNat_le.mpr h

theorem toText?_put_eq_none {c : Config} {setting : Setting} (h : ¬setting.Fits) :
    (c.put setting).toText? = none := by
  cases setting with
  | colour on => exact absurd trivial h
  | limit n =>
    have hlarge : Setting.maxLimit < n := Nat.lt_of_not_le h
    exact toText?_eq_none (n := n) rfl (Int.ofNat_lt.mpr hlarge)

end Config

end CalendarRules
