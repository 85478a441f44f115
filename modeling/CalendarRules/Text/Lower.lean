import CalendarRules.Text.CaseData

/-! # Lower case

Every character has its own lower-case form, except that a capital sigma at the end of a word
becomes the final sigma.
-/

namespace CalendarRules.Text

def isCased (c : Char) : Bool := inRanges casedRanges c

def isCaseIgnorable (c : Char) : Bool := inRanges caseIgnorableRanges c

/-- Only the dotted capital I has a lower-case form of two characters. -/
def lowerChar (c : Char) : List Char :=
  if c.toNat < 0x80 then [c.toLower]
  else if c.toNat == 0x130 then ['i', Char.ofNat 0x307]
  else
    match lowerRuns.find? (·.covers c.toNat) with
    | some run => [Char.ofNat (run.target c.toNat)]
    | none => [c]

/-- The first character that is not ignorable has a case. -/
def startsCased (cs : List Char) : Bool :=
  match cs.dropWhile isCaseIgnorable with
  | [] => false
  | c :: _ => isCased c

/-- A sigma with letters before it, read backwards, and none after it ends a word. -/
def lowerSigma (before after : List Char) : Char :=
  if startsCased before && !startsCased after then 'ς' else 'σ'

/-- The lower-case form of `cs`, which follows the characters of `before`, the nearest first. -/
def lowerFrom (before : List Char) : List Char → List Char
  | [] => []
  | c :: cs =>
    (if c = 'Σ' then [lowerSigma before cs] else lowerChar c) ++ lowerFrom (c :: before) cs

def lower (s : String) : String := String.ofList (lowerFrom [] s.toList)

/-! ## Text for comparison -/

/-- The straight and curly quote marks. -/
def isQuoteMark (c : Char) : Bool :=
  c == '"' || c == '\'' || c == '“' || c == '”' || c == '‘' || c == '’'

def foldChars (cs : List Char) : List Char := (lowerFrom [] cs).filter (!isQuoteMark ·)

/-- Lower case without quote marks, so that text is compared whatever quotes it was typed with. -/
def fold (s : String) : String := String.ofList (foldChars s.toList)

end CalendarRules.Text
