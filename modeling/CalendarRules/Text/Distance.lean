/-! # Edit distance

The least number of insertions, deletions and replacements of single characters that turn one
word into another. The table is filled row by row: each row holds the distances from one start of
the first word to every start of the second.
-/

namespace CalendarRules.Text

/-- The rest of a row, from the cell above and to the left, the cell to the left, and the cells
above. -/
def rowFrom (c : Char) : Nat → Nat → List Nat → List Char → List Nat
  | corner, left, up :: above, d :: ds =>
    let cell := min (min (up + 1) (left + 1)) (if c = d then corner else corner + 1)
    cell :: rowFrom c up cell above ds
  | _, _, _, _ => []

/-- The row after `row`, for one more character `c` of the first word. -/
def nextRow (word : List Char) (row : List Nat) (c : Char) : List Nat :=
  match row with
  | [] => []
  | corner :: above => (corner + 1) :: rowFrom c corner (corner + 1) above word

def distanceChars (a b : List Char) : Nat :=
  ((a.foldl (nextRow b) (List.range (b.length + 1))).getLast?).getD 0

def distance (a b : String) : Nat := distanceChars a.toList b.toList

end CalendarRules.Text
