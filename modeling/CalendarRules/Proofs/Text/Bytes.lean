import CalendarRules.Proofs.Text.Runs
import Mathlib.Data.List.Basic

/-!
# Texts as bytes

A character of ASCII is one byte, and the bytes of any other character are greater. So digits and
signs can be looked for among the bytes.
-/

namespace CalendarRules.Text

/-- The text in UTF-8. -/
def bytes (cs : List Char) : List UInt8 := cs.flatMap String.utf8EncodeChar

theorem bytes_toList (s : String) : bytes s.toList = s.toUTF8.data.toList := by
  rw [String.toUTF8_eq_toByteArray, ← String.utf8Encode_toList]
  exact List.toList_data_toByteArray.symm

theorem bytes_append (cs ds : List Char) : bytes (cs ++ ds) = bytes cs ++ bytes ds :=
  List.flatMap_append

/-! ## The first byte -/

theorem bytes_cons_ascii {c : Char} (h : c.toNat < 128) (cs : List Char) :
    bytes (c :: cs) = UInt8.ofNat c.toNat :: bytes cs := by
  have hone : String.utf8EncodeChar c = [UInt8.ofNat c.toNat] := by
    unfold String.utf8EncodeChar
    exact if_pos (Nat.le_of_lt_succ h)
  rw [bytes, List.flatMap_cons, hone]
  rfl

theorem bytes_cons_wide {c : Char} (h : 128 ≤ c.toNat) (cs : List Char) :
    ∃ b bs, bytes (c :: cs) = b :: bs ∧ 128 ≤ b.toNat := by
  have hfirst : ∃ b bs, String.utf8EncodeChar c = b :: bs ∧ 128 ≤ b.toNat := by
    have hwide : ¬ c.val.toNat ≤ 0x7f := Nat.not_le_of_lt h
    unfold String.utf8EncodeChar
    simp only [if_neg hwide]
    split
    · refine ⟨_, _, rfl, ?_⟩
      rw [UInt8.toNat_ofNat']
      omega
    · split
      all_goals
        refine ⟨_, _, rfl, ?_⟩
        rw [UInt8.toNat_ofNat']
        omega
  obtain ⟨b, bs, hbytes, hb⟩ := hfirst
  exact ⟨b, bs ++ bytes cs, by rw [bytes, List.flatMap_cons, hbytes]; rfl, hb⟩

theorem toNat_ofNat_ascii {c : Char} (h : c.toNat < 128) :
    (UInt8.ofNat c.toNat).toNat = c.toNat := by
  rw [UInt8.toNat_ofNat']
  exact Nat.mod_eq_of_lt (by omega)

theorem bytes_ascii {cs : List Char} (h : ∀ c ∈ cs, c.toNat < 128) :
    bytes cs = cs.map fun c => UInt8.ofNat c.toNat := by
  induction cs with
  | nil => rfl
  | cons c cs ih =>
    obtain ⟨hc, hcs⟩ := List.forall_mem_cons.mp h
    rw [bytes_cons_ascii hc, ih hcs, List.map_cons]

theorem exists_cons_bytes_ne {c d : Char} (hd : d.toNat < 128) (hne : d ≠ c) (cs : List Char) :
    ∃ b bs, bytes (c :: cs) = b :: bs ∧ UInt8.ofNat d.toNat ≠ b := by
  rcases Nat.lt_or_ge c.toNat 128 with hc | hc
  · refine ⟨_, _, bytes_cons_ascii hc cs, fun h => hne ?_⟩
    rw [← UInt8.toNat_inj, toNat_ofNat_ascii hd, toNat_ofNat_ascii hc] at h
    exact Char.toNat_inj.mp h
  · obtain ⟨b, bs, hbytes, hb⟩ := bytes_cons_wide hc cs
    refine ⟨b, bs, hbytes, fun h => ?_⟩
    rw [← h, toNat_ofNat_ascii hd] at hb
    omega

theorem isPrefixOf?_bytes {front : List Char} (h : ∀ c ∈ front, c.toNat < 128) (cs : List Char) :
    (bytes front).isPrefixOf? (bytes cs) = (front.isPrefixOf? cs).map bytes := by
  induction front generalizing cs with
  | nil => rfl
  | cons d front ih =>
    obtain ⟨hd, hfront⟩ := List.forall_mem_cons.mp h
    rw [bytes_cons_ascii hd]
    cases cs with
    | nil => rfl
    | cons c cs =>
      by_cases hdc : d = c
      · subst hdc
        rw [bytes_cons_ascii hd]
        simpa [List.isPrefixOf?] using ih hfront cs
      · obtain ⟨b, bs, hbytes, hne⟩ := exists_cons_bytes_ne hd hdc cs
        simp [hbytes, List.isPrefixOf?, hdc, hne]

/-! ## Digits -/

def isDigitByte (b : UInt8) : Bool := 48 ≤ b.toNat && b.toNat ≤ 57

theorem toNat_lt_of_isDigit {c : Char} (h : c.isDigit = true) : c.toNat < 128 := by
  have hbounds : 48 ≤ c.toNat ∧ c.toNat ≤ 57 := Char.isDigit_iff_toNat.mp h
  omega

theorem isDigitByte_ofNat {c : Char} (h : c.toNat < 128) :
    isDigitByte (UInt8.ofNat c.toNat) = c.isDigit := by
  rw [isDigitByte, toNat_ofNat_ascii h]
  rfl

theorem not_isDigitByte_of_wide {b : UInt8} (h : 128 ≤ b.toNat) : ¬ isDigitByte b = true := by
  unfold isDigitByte
  simp only [Bool.and_eq_true, decide_eq_true_eq]
  omega

theorem takeWhile_bytes (cs : List Char) :
    (bytes cs).takeWhile isDigitByte = bytes (cs.takeWhile Char.isDigit) := by
  induction cs with
  | nil => rfl
  | cons c cs ih =>
    rcases Nat.lt_or_ge c.toNat 128 with hc | hc
    · rw [bytes_cons_ascii hc, List.takeWhile_cons, isDigitByte_ofNat hc, List.takeWhile_cons]
      split
      · rw [bytes_cons_ascii hc, ih]
      · rfl
    · obtain ⟨b, bs, hbytes, hb⟩ := bytes_cons_wide hc cs
      have hbyte : ¬ isDigitByte b = true := not_isDigitByte_of_wide hb
      have hchar : ¬ c.isDigit = true := fun h => Nat.not_le_of_lt (toNat_lt_of_isDigit h) hc
      rw [hbytes, List.takeWhile_cons_of_neg hbyte, List.takeWhile_cons_of_neg hchar]
      rfl

theorem length_bytes_digits {ds : List Char} (h : ∀ d ∈ ds, d.isDigit = true) :
    (bytes ds).length = ds.length := by
  rw [bytes_ascii fun d hd => toNat_lt_of_isDigit (h d hd), List.length_map]

theorem all_bytes_digits {ds : List Char} (h : ∀ d ∈ ds, d.isDigit = true) :
    (bytes ds).all isDigitByte = true := by
  rw [bytes_ascii fun d hd => toNat_lt_of_isDigit (h d hd), List.all_map, List.all_eq_true]
  intro d hd
  rw [Function.comp_apply, isDigitByte_ofNat (toNat_lt_of_isDigit (h d hd)), h d hd]

def ofDigitBytes (bs : List UInt8) : Nat := bs.foldl (fun n b => 10 * n + (b.toNat - 48)) 0

theorem ofDigitBytes_bytes {ds : List Char} (h : ∀ d ∈ ds, d.isDigit = true) :
    ofDigitBytes (bytes ds) = Nat.ofDigitChars 10 ds 0 := by
  rw [ofDigitBytes, bytes_ascii fun d hd => toNat_lt_of_isDigit (h d hd), List.foldl_map]
  refine List.foldl_ext _ _ _ fun n d hd => ?_
  rw [toNat_ofNat_ascii (toNat_lt_of_isDigit (h d hd))]
  rfl

/-! ## Cuts -/

/-- The text in front of the byte at a place, and the text from there on. There is no cut inside a
character or behind the end. -/
def cut? (place : Nat) (bs : List UInt8) : Option (List UInt8 × List UInt8) :=
  if place ≤ bs.length && (bs.drop place).head?.all (fun b => decide b.IsUTF8FirstByte) then
    some (bs.take place, bs.drop place)
  else none

theorem isUTF8FirstByte_head (cs : List Char) : ∀ b ∈ (bytes cs).head?, b.IsUTF8FirstByte := by
  cases cs with
  | nil => simp [bytes]
  | cons c cs =>
    have hne : String.utf8EncodeChar c ≠ [] := String.utf8EncodeChar_ne_nil
    obtain ⟨first, more, hfirst⟩ := List.exists_cons_of_ne_nil hne
    have hstart := UInt8.isUTF8FirstByte_getElem_zero_utf8EncodeChar (c := c)
    simp only [hfirst, List.getElem_cons_zero] at hstart
    simpa [bytes, hfirst] using hstart

theorem cut?_bytes (cs ds : List Char) :
    cut? (bytes cs).length (bytes (cs ++ ds)) = some (bytes cs, bytes ds) := by
  have hstart : (bytes ds).head?.all (fun b => decide b.IsUTF8FirstByte) = true := by
    simpa [Option.all_eq_true] using isUTF8FirstByte_head ds
  rw [cut?, bytes_append, List.drop_left, hstart]
  simp

theorem exists_of_cut?_digits {n : Nat} {cs : List Char} {front rest : List UInt8}
    (h : cut? n (bytes cs) = some (front, rest)) (hdigits : front.all isDigitByte = true) :
    ∃ ds after, cs = ds ++ after ∧ ds.length = n ∧ ∀ d ∈ ds, d.isDigit = true := by
  unfold cut? at h
  split at h
  case isFalse => cases h
  case isTrue hfits =>
    simp only [Bool.and_eq_true, decide_eq_true_eq] at hfits
    cases h
    have hrun : n ≤ ((bytes cs).takeWhile isDigitByte).length := by
      rw [← List.take_append_drop n (bytes cs),
        List.takeWhile_append_of_pos (List.all_eq_true.mp hdigits), List.length_append,
        List.length_take_of_le hfits.1]
      omega
    rw [takeWhile_bytes, length_bytes_digits fun d hd => List.mem_takeWhile_imp hd] at hrun
    refine ⟨(cs.takeWhile Char.isDigit).take n,
      (cs.takeWhile Char.isDigit).drop n ++ cs.dropWhile Char.isDigit, ?_,
      List.length_take_of_le hrun, fun d hd => List.mem_takeWhile_imp (List.mem_of_mem_take hd)⟩
    rw [← List.append_assoc, List.take_append_drop, List.takeWhile_append_dropWhile]

end CalendarRules.Text
