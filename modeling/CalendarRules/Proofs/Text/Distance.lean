import CalendarRules.Text.Distance
import Mathlib.Order.Bounds.Basic

/-!
# The distance of two words is the least number of edits

An edit inserts, deletes or replaces one character anywhere in a word. The cells of the table follow
a recursion on the ends of the two words, and no row of edits is shorter than that recursion says.
-/

namespace CalendarRules.Text

/-- One character is inserted, deleted or replaced. -/
inductive Edit : List Char → List Char → Prop where
  | insert (x : List Char) (c : Char) (y : List Char) : Edit (x ++ y) (x ++ c :: y)
  | delete (x : List Char) (c : Char) (y : List Char) : Edit (x ++ c :: y) (x ++ y)
  | replace (x : List Char) (c d : Char) (y : List Char) : Edit (x ++ c :: y) (x ++ d :: y)

/-- The second word is what so many edits make of the first. -/
inductive Edits : Nat → List Char → List Char → Prop where
  | none (a : List Char) : Edits 0 a a
  | one {n : Nat} {a b c : List Char} (h : Edit a b) (hs : Edits n b c) : Edits (n + 1) a c

theorem edits_zero_iff {a b : List Char} : Edits 0 a b ↔ a = b := by
  constructor
  · rintro ⟨⟩
    rfl
  · rintro rfl
    exact .none a

theorem Edits.length_le {n : Nat} {a b : List Char} (h : Edits n a b) :
    a.length ≤ b.length + n ∧ b.length ≤ a.length + n := by
  induction h with
  | none => omega
  | one h _ ih => cases h <;> simp only [List.length_append, List.length_cons] at ih ⊢ <;> omega

/-! ## The recursion -/

/-- The distance by the first characters of both words. -/
def editCost : List Char → List Char → Nat
  | [], b => b.length
  | a, [] => a.length
  | c :: a, d :: b =>
    min (min (editCost a (d :: b) + 1) (editCost (c :: a) b + 1))
      (if c = d then editCost a b else editCost a b + 1)
termination_by a b => a.length + b.length

theorem editCost_nil_left (b : List Char) : editCost [] b = b.length := by rw [editCost]

theorem editCost_nil_right (a : List Char) : editCost a [] = a.length := by
  cases a with
  | nil => rw [editCost]
  | cons c a => rw [editCost]; simp

theorem editCost_cons (c d : Char) (a b : List Char) :
    editCost (c :: a) (d :: b) =
      min (min (editCost a (d :: b) + 1) (editCost (c :: a) b + 1))
        (if c = d then editCost a b else editCost a b + 1) := by
  rw [editCost]

theorem editCost_cons_cases (c d : Char) (a b : List Char) :
    editCost (c :: a) (d :: b) = editCost a (d :: b) + 1 ∨
      editCost (c :: a) (d :: b) = editCost (c :: a) b + 1 ∨
      (c = d ∧ editCost (c :: a) (d :: b) = editCost a b) ∨
      editCost (c :: a) (d :: b) = editCost a b + 1 := by
  rw [editCost_cons]
  by_cases h : c = d <;> simp only [h, if_true, if_false, true_and, false_and] <;> omega

theorem editCost_cons_le (c d : Char) (a b : List Char) :
    editCost (c :: a) (d :: b) ≤ editCost a (d :: b) + 1 ∧
      editCost (c :: a) (d :: b) ≤ editCost (c :: a) b + 1 ∧
      editCost (c :: a) (d :: b) ≤ editCost a b + 1 ∧
      (c = d → editCost (c :: a) (d :: b) ≤ editCost a b) := by
  rw [editCost_cons]
  by_cases h : c = d <;>
    simp only [h, if_true, if_false, forall_const, false_implies, and_true] <;> omega

theorem editCost_self (a : List Char) : editCost a a = 0 := by
  induction a with
  | nil => rw [editCost_nil_left]; rfl
  | cons c a ih => rw [editCost_cons, if_pos rfl, ih, Nat.min_zero]

/-! ## The table holds the recursion on the ends of the words -/

/-- The cells for all longer starts of the second word, of which `b` is read, the last first. -/
def cellsAfter (a b : List Char) : List Char → List Nat
  | [] => []
  | d :: ds => editCost a (d :: b) :: cellsAfter a (d :: b) ds

theorem rowFrom_cellsAfter (c : Char) (a b ds : List Char) :
    rowFrom c (editCost a b) (editCost (c :: a) b) (cellsAfter a b ds) ds =
      cellsAfter (c :: a) b ds := by
  induction ds generalizing b with
  | nil => rfl
  | cons d ds ih => rw [cellsAfter, cellsAfter, rowFrom, ← editCost_cons, ih]

theorem nextRow_cellsAfter (c : Char) (a ds : List Char) :
    nextRow ds (editCost a [] :: cellsAfter a [] ds) c =
      editCost (c :: a) [] :: cellsAfter (c :: a) [] ds := by
  have hcorner : editCost a [] + 1 = editCost (c :: a) [] := by
    rw [editCost_nil_right, editCost_nil_right, List.length_cons]
  rw [nextRow, hcorner, rowFrom_cellsAfter]

theorem foldl_nextRow (a cs ds : List Char) :
    cs.foldl (nextRow ds) (editCost a [] :: cellsAfter a [] ds) =
      editCost (cs.reverse ++ a) [] :: cellsAfter (cs.reverse ++ a) [] ds := by
  induction cs generalizing a with
  | nil => rfl
  | cons c cs ih => rw [List.foldl_cons, nextRow_cellsAfter, ih]; simp

theorem range_eq_cellsAfter (b ds : List Char) :
    (List.range (ds.length + 1)).map (b.length + ·) = editCost [] b :: cellsAfter [] b ds := by
  induction ds generalizing b with
  | nil => simp [cellsAfter, editCost_nil_left]
  | cons d ds ih =>
    rw [cellsAfter, ← ih (d :: b), List.length_cons, List.range_succ_eq_map, List.map_cons,
      List.map_map, editCost_nil_left]
    simp [Function.comp_def, Nat.add_assoc, Nat.add_comm 1]

theorem getLast?_cellsAfter (a b ds : List Char) :
    (editCost a b :: cellsAfter a b ds).getLast? = some (editCost a (ds.reverse ++ b)) := by
  induction ds generalizing b with
  | nil => rfl
  | cons d ds ih =>
    rw [cellsAfter, List.getLast?_cons_cons, ih]
    simp

theorem distanceChars_eq (a b : List Char) :
    distanceChars a b = editCost a.reverse b.reverse := by
  have hfirst := range_eq_cellsAfter [] b
  simp only [List.length_nil, Nat.zero_add, List.map_id'] at hfirst
  rw [distanceChars, hfirst, foldl_nextRow, getLast?_cellsAfter]
  simp

/-! ## So many edits are enough -/

theorem Edit.cons {a b : List Char} (h : Edit a b) (c : Char) : Edit (c :: a) (c :: b) := by
  cases h with
  | insert x d y => exact .insert (c :: x) d y
  | delete x d y => exact .delete (c :: x) d y
  | replace x d e y => exact .replace (c :: x) d e y

theorem Edits.cons {n : Nat} {a b : List Char} (h : Edits n a b) (c : Char) :
    Edits n (c :: a) (c :: b) := by
  induction h with
  | none a => exact .none (c :: a)
  | one h _ ih => exact .one (h.cons c) ih

theorem edits_insert_all (b : List Char) : Edits b.length [] b := by
  induction b with
  | nil => exact .none []
  | cons d b ih => exact .one (.insert [] d []) (ih.cons d)

theorem edits_delete_all (a : List Char) : Edits a.length a [] := by
  induction a with
  | nil => exact .none []
  | cons c a ih => exact .one (.delete [] c a) ih

theorem edits_editCost (a b : List Char) : Edits (editCost a b) a b := by
  induction a, b using editCost.induct with
  | case1 b =>
    rw [editCost_nil_left]
    exact edits_insert_all b
  | case2 a =>
    rw [editCost_nil_right]
    exact edits_delete_all a
  | case3 c a d b hdelete hinsert hboth =>
    rcases editCost_cons_cases c d a b with h | h | ⟨rfl, h⟩ | h
    · rw [h]
      exact .one (.delete [] c a) hdelete
    · rw [h]
      exact .one (.insert [] d (c :: a)) (hinsert.cons d)
    · rw [h]
      exact hboth.cons c
    · rw [h]
      exact .one (.replace [] c d a) (hboth.cons d)

/-! ## No fewer edits are enough -/

theorem editCost_cons_left_le (c : Char) (a b : List Char) :
    editCost (c :: a) b ≤ editCost a b + 1 := by
  cases b with
  | nil => simp [editCost_nil_right]
  | cons d b => exact (editCost_cons_le c d a b).1

theorem editCost_cons_right_le (a : List Char) (d : Char) (b : List Char) :
    editCost a (d :: b) ≤ editCost a b + 1 := by
  cases a with
  | nil => simp [editCost_nil_left]
  | cons c a => exact (editCost_cons_le c d a b).2.1

theorem editCost_le_cons_left (c : Char) (a b : List Char) :
    editCost a b ≤ editCost (c :: a) b + 1 := by
  induction b with
  | nil => simp [editCost_nil_right]; omega
  | cons d b ih =>
    have hd := editCost_cons_right_le a d b
    rcases editCost_cons_cases c d a b with h | h | ⟨-, h⟩ | h <;> omega

theorem editCost_replace_le (c d : Char) (a b : List Char) :
    editCost (c :: a) b ≤ editCost (d :: a) b + 1 := by
  induction b with
  | nil => simp [editCost_nil_right]
  | cons e b ih =>
    obtain ⟨hdelete, hinsert, hboth, -⟩ := editCost_cons_le c e a b
    rcases editCost_cons_cases d e a b with h | h | ⟨-, h⟩ | h <;> omega

theorem editCost_keep_le {a a' : List Char} (h : ∀ b, editCost a b ≤ editCost a' b + 1) (c : Char)
    (b : List Char) : editCost (c :: a) b ≤ editCost (c :: a') b + 1 := by
  induction b with
  | nil =>
    have hnil := h []
    simp only [editCost_nil_right, List.length_cons] at hnil ⊢
    omega
  | cons d b ih =>
    obtain ⟨hdelete, hinsert, hboth, hsame⟩ := editCost_cons_le c d a b
    have hcost := h (d :: b)
    have hrest := h b
    rcases editCost_cons_cases c d a' b with h | h | ⟨hcd, h⟩ | h
    · omega
    · omega
    · have := hsame hcd
      omega
    · omega

theorem editCost_append_le {a a' : List Char} (h : ∀ b, editCost a b ≤ editCost a' b + 1)
    (x b : List Char) : editCost (x ++ a) b ≤ editCost (x ++ a') b + 1 := by
  induction x generalizing b with
  | nil => exact h b
  | cons c x ih => exact editCost_keep_le ih c b

theorem editCost_le_of_edit {a a' : List Char} (h : Edit a a') (b : List Char) :
    editCost a b ≤ editCost a' b + 1 := by
  cases h with
  | insert x c y => exact editCost_append_le (editCost_le_cons_left c y) x b
  | delete x c y => exact editCost_append_le (editCost_cons_left_le c y) x b
  | replace x c d y => exact editCost_append_le (editCost_replace_le c d y) x b

theorem editCost_le_of_edits {n : Nat} {a b : List Char} (h : Edits n a b) : editCost a b ≤ n := by
  induction h with
  | none a => rw [editCost_self]
  | one h _ ih =>
    have hstep := editCost_le_of_edit h
    exact Nat.le_trans (hstep _) (Nat.add_le_add_right ih 1)

/-! ## Words read backwards -/

theorem Edit.reverse {a b : List Char} (h : Edit a b) : Edit a.reverse b.reverse := by
  cases h with
  | insert x c y => simpa using Edit.insert y.reverse c x.reverse
  | delete x c y => simpa using Edit.delete y.reverse c x.reverse
  | replace x c d y => simpa using Edit.replace y.reverse c d x.reverse

theorem Edits.reverse {n : Nat} {a b : List Char} (h : Edits n a b) :
    Edits n a.reverse b.reverse := by
  induction h with
  | none a => exact .none a.reverse
  | one h _ ih => exact .one h.reverse ih

/-- The distance of two words is the least number of edits that make the second of the first. -/
theorem isLeast_distanceChars (a b : List Char) :
    IsLeast {n | Edits n a b} (distanceChars a b) := by
  rw [distanceChars_eq]
  constructor
  · have h := (edits_editCost a.reverse b.reverse).reverse
    rwa [List.reverse_reverse, List.reverse_reverse] at h
  · intro n h
    exact editCost_le_of_edits (Edits.reverse h)

theorem distance_eq_zero_iff (a b : String) : distance a b = 0 ↔ a = b := by
  have hleast := isLeast_distanceChars a.toList b.toList
  rw [← String.toList_inj]
  constructor
  · intro h
    have hedits := hleast.1
    rw [← distance, h] at hedits
    exact edits_zero_iff.mp hedits
  · intro h
    exact Nat.le_zero.mp (hleast.2 (edits_zero_iff.mpr h))

end CalendarRules.Text
