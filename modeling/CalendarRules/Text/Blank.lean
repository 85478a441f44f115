/-! # Blank characters and lines -/

namespace CalendarRules.Text

/-- The class White_Space. -/
def isBlank (c : Char) : Bool :=
  let n := c.toNat
  (0x9 ≤ n && n ≤ 0xd) || n == 0x20 || n == 0x85 || n == 0xa0 || n == 0x1680 ||
    (0x2000 ≤ n && n ≤ 0x200a) || n == 0x2028 || n == 0x2029 || n == 0x202f || n == 0x205f ||
    n == 0x3000

/-- The four characters that part the items of a query. Other blanks belong to a value. -/
def isSeparator (c : Char) : Bool := c == ' ' || c == '\t' || c == '\n' || c == '\r'

theorem isBlank_of_isSeparator (c : Char) (h : isSeparator c = true) : isBlank c = true := by
  simp only [isSeparator, Bool.or_eq_true, beq_iff_eq] at h
  rcases h with ((rfl | rfl) | rfl) | rfl <;> decide

/-! ## Trimming -/

def trimStartChars (cs : List Char) : List Char := cs.dropWhile isBlank

def trimEndChars (cs : List Char) : List Char := (cs.reverse.dropWhile isBlank).reverse

def trimChars (cs : List Char) : List Char := trimEndChars (trimStartChars cs)

def trim (s : String) : String := String.ofList (trimChars s.toList)

def trimEnd (s : String) : String := String.ofList (trimEndChars s.toList)

theorem trimStartChars_cons_blank (c : Char) (cs : List Char) (h : isBlank c = true) :
    trimStartChars (c :: cs) = trimStartChars cs := by
  simp [trimStartChars, h]

theorem trimStartChars_cons_of_not_blank (c : Char) (cs : List Char) (h : isBlank c = false) :
    trimStartChars (c :: cs) = c :: cs := by
  simp [trimStartChars, h]

/-! ## Lines -/

/-- The lines of a text. A line feed, or a carriage return and a line feed, ends a line, and no
empty line follows the last end. -/
def lines : List Char → List (List Char)
  | [] => []
  | '\n' :: cs => [] :: lines cs
  | '\r' :: '\n' :: cs => [] :: lines cs
  | c :: cs =>
    match lines cs with
    | [] => [[c]]
    | l :: ls => (c :: l) :: ls

end CalendarRules.Text
