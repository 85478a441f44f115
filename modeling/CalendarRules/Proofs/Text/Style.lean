import CalendarRules.Proofs.Text.Quoted
import CalendarRules.Text.Cell
import CalendarRules.Text.Style

/-!
# A text without its colours

A code for a colour begins with an escape character and ends with the letter `m`. A text that has
no escape character of its own is what is left of it in any style when the codes are taken out.
-/

namespace CalendarRules.Text

open Json (NoControl)

/-! ## Taking out the codes -/

/-- What is left without codes. A code may have begun before: its rest, up to the `m`, goes too. -/
def eraseCodes (within : Bool) : List Char → List Char
  | [] => []
  | c :: cs =>
    if within then eraseCodes (c != 'm') cs
    else if c = '\x1b' && cs.head? == some '[' then eraseCodes true cs
    else c :: eraseCodes false cs

def withoutColours (s : String) : String := String.ofList (eraseCodes false s.toList)

theorem eraseCodes_append {cs : List Char} (h : '\x1b' ∉ cs) (rest : List Char) :
    eraseCodes false (cs ++ rest) = cs ++ eraseCodes false rest := by
  induction cs with
  | nil => rfl
  | cons c cs ih =>
    obtain ⟨hc, hcs⟩ := not_or.mp (mt List.mem_cons.mpr h)
    simp [eraseCodes, ih hcs, Ne.symm hc]

theorem eraseCodes_pair {c d : Char} (hd : d ≠ '[') (hescape : d ≠ '\x1b') (rest : List Char) :
    eraseCodes false (c :: d :: rest) = c :: d :: eraseCodes false rest := by
  simp [eraseCodes, hd, hescape]

theorem eraseCodes_within {cs : List Char} (h : 'm' ∉ cs) (rest : List Char) :
    eraseCodes true (cs ++ 'm' :: rest) = eraseCodes false rest := by
  induction cs with
  | nil => rfl
  | cons c cs ih =>
    obtain ⟨hc, hcs⟩ := not_or.mp (mt List.mem_cons.mpr h)
    have hstays : (c != 'm') = true := bne_iff_ne.mpr (Ne.symm hc)
    simp [eraseCodes, hstays, ih hcs]

theorem eraseCodes_sequence {code : String} (h : 'm' ∉ code.toList) (rest : List Char) :
    eraseCodes false ((Style.sequence code).toList ++ rest) = eraseCodes false rest := by
  have hcode : (Style.sequence code).toList = '\x1b' :: '[' :: code.toList ++ ['m'] := by
    simp [Style.sequence]
  have hbody := eraseCodes_within h rest
  simpa [hcode, eraseCodes] using hbody

/-! ## Texts without escape characters -/

def NoEscape (s : String) : Prop := '\x1b' ∉ s.toList

instance (s : String) : Decidable (NoEscape s) := inferInstanceAs (Decidable ('\x1b' ∉ s.toList))

namespace NoEscape

theorem of_noControl {s : String} (h : NoControl s.toList) : NoEscape s :=
  fun hc => absurd (h _ hc) (by decide)

theorem append_iff {s t : String} : NoEscape (s ++ t) ↔ NoEscape s ∧ NoEscape t := by
  rw [NoEscape, String.toList_append, List.mem_append, not_or]
  rfl

theorem spaces (n : Nat) : NoEscape (String.ofList (List.replicate n ' ')) := by
  simp [NoEscape]

theorem padRight {s : String} (h : NoEscape s) (width : Nat) : NoEscape (padRight width s) :=
  append_iff.mpr ⟨h, spaces _⟩

theorem cutWith {s marker : String} (h : NoEscape s) (hmarker : NoEscape marker) (width : Nat) :
    NoEscape (cutWith marker width s) := by
  unfold Text.cutWith
  split
  · exact h
  · refine append_iff.mpr ⟨?_, hmarker⟩
    rw [NoEscape, String.toList_ofList]
    exact fun hc => h (List.mem_of_mem_take hc)

theorem toString (n : Nat) : NoEscape (toString n) :=
  of_noControl (by simpa using Json.noControl_toDigits n)

theorem getD {s? : Option String} (h : ∀ s ∈ s?, NoEscape s) : NoEscape (s?.getD "") := by
  cases s? with
  | none => decide
  | some s => exact h s rfl

end NoEscape

/-! ## Texts in colour -/

/-- Whatever follows, this much is left of the coloured text when the codes are taken out. -/
def ColourOnly (coloured plain : String) : Prop :=
  ∀ rest, eraseCodes false (coloured.toList ++ rest) = plain.toList ++ eraseCodes false rest

namespace ColourOnly

variable {s t s' t' : String}

theorem of_noEscape (h : NoEscape s) : ColourOnly s s := eraseCodes_append h

theorem append (h : ColourOnly s t) (h' : ColourOnly s' t') : ColourOnly (s ++ s') (t ++ t') := by
  intro rest
  rw [String.toList_append, List.append_assoc, h, h', ← List.append_assoc, ← String.toList_append]

theorem paint (style : Style) (h : ColourOnly s t) :
    ColourOnly (style.paint true s) (style.paint false t) := by
  have hstart : 'm' ∉ style.start.toList := by cases style <;> decide
  have hstop : 'm' ∉ style.stop.toList := by cases style <;> decide
  intro rest
  rw [Style.paint, if_pos rfl, String.toList_append, String.toList_append, List.append_assoc,
    List.append_assoc, eraseCodes_sequence hstart, h, eraseCodes_sequence hstop]
  rfl

theorem join {α : Type} {f g : α → String} {l : List α} (h : ∀ a ∈ l, ColourOnly (f a) (g a)) :
    ColourOnly (String.join (l.map f)) (String.join (l.map g)) := by
  induction l with
  | nil => exact fun _ => rfl
  | cons a l ih =>
    rw [List.map_cons, List.map_cons, String.join_cons, String.join_cons]
    exact (h a List.mem_cons_self).append (ih fun b hb => h b (List.mem_cons_of_mem _ hb))

theorem ofChar (c : Char) : ColourOnly (c.toString ++ "'") (c.toString ++ "'") := by
  intro rest
  have htext : (c.toString ++ "'").toList = [c, '\''] := by simp
  rw [htext]
  exact eraseCodes_pair (by decide) (by decide) rest

theorem withoutColours_eq (h : ColourOnly s t) : withoutColours s = t := by
  have hs := h []
  rw [List.append_nil, eraseCodes, List.append_nil] at hs
  rw [withoutColours, hs, String.ofList_toList]

end ColourOnly

end CalendarRules.Text
