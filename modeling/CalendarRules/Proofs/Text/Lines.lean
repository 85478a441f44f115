import CalendarRules.Text.Blank
import Mathlib.Data.List.TakeWhile

/-! # How the lines of a text are laid out -/

namespace CalendarRules.Text

/-- The text holds these lines. A line feed, or a carriage return and a line feed, ends each of
them. Only the last one may go without an end, and then there is something on it. -/
inductive LaidOut : List (List Char) → List Char → Prop where
  | nil : LaidOut [] []
  | last {l} (hl : '\n' ∉ l) (hne : l ≠ []) : LaidOut [l] l
  | lineFeed {l ls cs} (hl : '\n' ∉ l) (hend : l.getLast? ≠ some '\r') (hls : LaidOut ls cs) :
    LaidOut (l :: ls) (l ++ '\n' :: cs)
  | returnFeed {l ls cs} (hl : '\n' ∉ l) (hls : LaidOut ls cs) :
    LaidOut (l :: ls) (l ++ '\r' :: '\n' :: cs)

/-! ## Reading the lines -/

theorem lines_cons {c : Char} {cs l : List Char} {ls : List (List Char)} (hc : c ≠ '\n')
    (hend : c = '\r' → cs.head? ≠ some '\n') (h : lines cs = l :: ls) :
    lines (c :: cs) = (c :: l) :: ls := by
  rw [lines.eq_4 c cs hc fun _ hr hcs => hend hr (by simp [hcs]), h]

theorem head?_append_ne {a b : Char} {l : List Char} (hl : a ∉ l) (hb : a ≠ b) (rest : List Char) :
    (l ++ b :: rest).head? ≠ some a := by
  cases l with
  | nil => simpa using hb.symm
  | cons c l => simpa using fun h : c = a => hl (by simp [h])

theorem lines_last {l : List Char} (hl : '\n' ∉ l) (hne : l ≠ []) : lines l = [l] := by
  induction l with
  | nil => exact absurd rfl hne
  | cons c l ih =>
    obtain ⟨hc, hl⟩ := not_or.mp (mt List.mem_cons.mpr hl)
    cases l with
    | nil => exact lines.eq_4 c [] (Ne.symm hc) (by simp)
    | cons d l =>
      refine lines_cons (Ne.symm hc) (fun _ => ?_) (ih hl (by simp))
      simpa using fun h : d = '\n' => hl (by simp [h])

theorem lines_lineFeed {l : List Char} (hl : '\n' ∉ l) (hend : l.getLast? ≠ some '\r')
    (cs : List Char) : lines (l ++ '\n' :: cs) = l :: lines cs := by
  induction l with
  | nil => rfl
  | cons c l ih =>
    obtain ⟨hc, hl⟩ := not_or.mp (mt List.mem_cons.mpr hl)
    cases l with
    | nil =>
      have hr : c ≠ '\r' := by simpa using hend
      exact lines_cons (Ne.symm hc) (fun h => absurd h hr) rfl
    | cons d l =>
      refine lines_cons (Ne.symm hc) (fun _ => ?_) (ih hl (by simpa using hend))
      simpa using fun h : d = '\n' => hl (by simp [h])

theorem lines_returnFeed {l : List Char} (hl : '\n' ∉ l) (cs : List Char) :
    lines (l ++ '\r' :: '\n' :: cs) = l :: lines cs := by
  induction l with
  | nil => rfl
  | cons c l ih =>
    obtain ⟨hc, hl⟩ := not_or.mp (mt List.mem_cons.mpr hl)
    exact lines_cons (Ne.symm hc) (fun _ => head?_append_ne hl (by decide) _) (ih hl)

/-! ## Every text has one layout -/

theorem LaidOut.cons {c : Char} {l cs : List Char} {ls : List (List Char)} (hc : c ≠ '\n')
    (hend : c = '\r' → cs.head? ≠ some '\n') (h : LaidOut (l :: ls) cs) :
    LaidOut ((c :: l) :: ls) (c :: cs) := by
  have hmem {l : List Char} (hl : '\n' ∉ l) : '\n' ∉ c :: l := by simp [hc.symm, hl]
  cases h with
  | last hl => exact .last (hmem hl) (by simp)
  | lineFeed hl hlast hls =>
    refine .lineFeed (hmem hl) ?_ hls
    -- On an empty line the character comes right before the line feed.
    cases l with
    | nil => simpa using fun h : c = '\r' => hend h rfl
    | cons d l => simpa using hlast
  | returnFeed hl hls => exact .returnFeed (hmem hl) hls

theorem laidOut_lines (cs : List Char) : LaidOut (lines cs) cs := by
  induction cs using lines.induct with
  | case1 => exact .nil
  | case2 cs ih => exact .lineFeed (l := []) (by simp) (by simp) ih
  | case3 cs ih => exact .returnFeed (l := []) (by simp) ih
  | case4 c cs hfeed hreturn hnil ih =>
    rw [hnil] at ih
    cases ih
    rw [lines_last (by simpa using Ne.symm hfeed) (by simp)]
    exact .last (by simpa using Ne.symm hfeed) (by simp)
  | case5 c cs hfeed hreturn l ls hls ih =>
    have hend : c = '\r' → cs.head? ≠ some '\n' := by
      intro hc hhead
      obtain ⟨rest, rfl⟩ := List.head?_eq_some_iff.mp hhead
      exact hreturn rest hc rfl
    rw [lines_cons hfeed hend hls]
    exact (hls ▸ ih).cons hfeed hend

theorem lines_eq_iff (ls : List (List Char)) (cs : List Char) : lines cs = ls ↔ LaidOut ls cs := by
  constructor
  · rintro rfl
    exact laidOut_lines cs
  · intro h
    induction h with
    | nil => rfl
    | last hl hne => exact lines_last hl hne
    | lineFeed hl hend _ ih => rw [lines_lineFeed hl hend, ih]
    | returnFeed hl _ ih => rw [lines_returnFeed hl, ih]

/-! ## Texts one after the other -/

theorem LaidOut.append {ls ks : List (List Char)} {cs ds : List Char} (h : LaidOut ls cs)
    (hend : ∀ c ∈ cs.getLast?, c = '\n') (hds : LaidOut ks ds) : LaidOut (ls ++ ks) (cs ++ ds) := by
  induction h with
  | nil => exact hds
  | @last l hl hne =>
    have hmem := List.getLast_mem hne
    rw [hend _ (List.getLast?_eq_some_getLast hne)] at hmem
    exact absurd hmem hl
  | @lineFeed l ls cs hl hlast _ ih =>
    have hrest := ih fun c hc => hend c (by simp [List.getLast?_cons, Option.mem_def.mp hc])
    simpa using LaidOut.lineFeed hl hlast hrest
  | @returnFeed l ls cs hl _ ih =>
    have hrest := ih fun c hc => hend c (by simp [List.getLast?_cons, Option.mem_def.mp hc])
    simpa using LaidOut.returnFeed hl hrest

theorem lines_append (cs ds : List Char) :
    lines (cs ++ '\n' :: ds) = lines (cs ++ ['\n']) ++ lines ds := by
  rw [lines_eq_iff, List.append_cons cs '\n' ds]
  exact (laidOut_lines _).append (by simp) (laidOut_lines ds)

theorem LaidOut.mem {ls : List (List Char)} {cs l : List Char} {c : Char} (h : LaidOut ls cs)
    (hl : l ∈ ls) (hc : c ∈ l) : c ∈ cs := by
  induction h with
  | nil => cases hl
  | last => rwa [List.mem_singleton.mp hl] at hc
  | lineFeed _ _ _ ih => rcases List.mem_cons.mp hl with rfl | hl <;> simp_all
  | returnFeed _ _ ih => rcases List.mem_cons.mp hl with rfl | hl <;> simp_all

/-! ## The first character that is no blank -/

theorem head?_trimStartChars (cs : List Char) :
    (trimStartChars cs).head? = cs.find? (!isBlank ·) :=
  (List.find?_not_eq_head?_dropWhile isBlank cs).symm

theorem LaidOut.head?_trimStartChars {ls : List (List Char)} {cs : List Char} (h : LaidOut ls cs) :
    (trimStartChars cs).head? = ls.findSome? fun l => (trimStartChars l).head? := by
  have hfeed : isBlank '\n' = true := rfl
  have hreturn : isBlank '\r' = true := rfl
  simp only [Text.head?_trimStartChars]
  induction h with
  | nil => rfl
  | @last l => cases hl : l.find? (!isBlank ·) <;> simp [hl]
  | @lineFeed l ls cs _ _ _ ih => cases hl : l.find? (!isBlank ·) <;> simp [hl, hfeed, ih]
  | @returnFeed l ls cs _ _ ih => cases hl : l.find? (!isBlank ·) <;> simp [hl, hfeed, hreturn, ih]

end CalendarRules.Text
