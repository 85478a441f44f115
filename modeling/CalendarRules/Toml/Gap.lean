/-! # What stands between the parts of a document: blanks, line ends and comments -/

namespace CalendarRules.Toml

def isBlank (c : Char) : Bool := c == ' ' || c == '\t'

/-- A character that may stand in a comment, or in text without escapes. -/
def isPlain (c : Char) : Bool := c == '\t' || (0x20 ≤ c.toNat && c.toNat != 0x7f)

def skipBlanks (cs : List Char) : List Char := cs.dropWhile isBlank

/-- What follows a line break, or nothing at the end of the text. -/
def readBreak? : List Char → Option (List Char)
  | [] => some []
  | '\n' :: cs => some cs
  | '\r' :: '\n' :: cs => some cs
  | _ => none

/-- The end of a line: blanks, perhaps a comment, and the break. -/
def readLineEnd? (cs : List Char) : Option (List Char) :=
  match skipBlanks cs with
  | '#' :: cs => readBreak? (cs.dropWhile isPlain)
  | cs => readBreak? cs

/-- What follows any number of blanks, breaks and comments. A comment has to end with its line. -/
def skipGaps? (inComment : Bool) : List Char → Option (List Char)
  | [] => if inComment then none else some []
  | '\n' :: cs => skipGaps? false cs
  | '\r' :: '\n' :: cs => skipGaps? false cs
  | c :: cs =>
    if inComment then if isPlain c then skipGaps? true cs else none
    else if isBlank c then skipGaps? false cs
    else if c = '#' then skipGaps? true cs
    else some (c :: cs)

end CalendarRules.Toml
