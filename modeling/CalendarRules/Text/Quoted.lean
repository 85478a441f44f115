import CalendarRules.Text.CodeRange
import CalendarRules.Text.PrintData

/-! # Quoted text: a value on one line with nothing hidden in it -/

namespace CalendarRules.Text

/-- A character that shows as itself. -/
def isShown (c : Char) : Bool :=
  if c.toNat < 0x80 then 0x20 ≤ c.toNat && c.toNat < 0x7f
  else !inRanges graphemeExtendRanges c && !inRanges unprintableRanges c

/-- The escape of a character by its number. -/
def numberEscape (c : Char) : List Char :=
  ['\\', 'u', '\x7b'] ++ Nat.toDigits 16 c.toNat ++ ['\x7d']

def quoteChar (c : Char) : List Char :=
  if c = '\x00' then ['\\', '0']
  else if c = '\t' then ['\\', 't']
  else if c = '\n' then ['\\', 'n']
  else if c = '\r' then ['\\', 'r']
  else if c = '"' || c = '\\' then ['\\', c]
  else if isShown c then [c]
  else numberEscape c

def quotedChars (cs : List Char) : List Char := '"' :: cs.flatMap quoteChar ++ ['"']

def quoted (s : String) : String := String.ofList (quotedChars s.toList)

end CalendarRules.Text
