import CalendarRules.Json.Basic

/-! # Writing JSON: on one line, or spread over lines with an indent of two -/

namespace CalendarRules.Json

/-! ## Text -/

def hexDigit (n : Nat) : Char := Nat.digitChar (n % 16)

/-- A quote, a backslash and the control characters are escaped, all else stands for itself. -/
def escapeChar (c : Char) : List Char :=
  if c = '"' then ['\\', '"']
  else if c = '\\' then ['\\', '\\']
  else if c = '\n' then ['\\', 'n']
  else if c = '\r' then ['\\', 'r']
  else if c = '\t' then ['\\', 't']
  else if c = '\x08' then ['\\', 'b']
  else if c = '\x0c' then ['\\', 'f']
  else if c.toNat < 0x20 then
    ['\\', 'u', '0', '0', hexDigit (c.toNat / 16), hexDigit c.toNat]
  else [c]

def writeText (s : String) : List Char := '"' :: s.toList.flatMap escapeChar ++ ['"']

/-! ## Values on one line -/

mutual

/-- The value without any blanks. -/
def Value.compact : Value → List Char
  | .null => "null".toList
  | .bool true => "true".toList
  | .bool false => "false".toList
  | .number n => n.text.toList
  | .text s => writeText s
  | .list items => '[' :: compactItems items ++ [']']
  | .object members => '\x7b' :: compactMembers members ++ ['\x7d']

def compactItems : List Value → List Char
  | [] => []
  | [v] => v.compact
  | v :: vs => v.compact ++ ',' :: compactItems vs

def compactMembers : List (String × Value) → List Char
  | [] => []
  | [(name, v)] => writeText name ++ ':' :: v.compact
  | (name, v) :: ms => writeText name ++ ':' :: v.compact ++ ',' :: compactMembers ms

end

/-! ## Values over several lines -/

/-- A line break and the indent of a depth. -/
def newLine (depth : Nat) : List Char := '\n' :: List.replicate (2 * depth) ' '

mutual

/-- The value at a depth of nesting, each item and each member on lines of its own. -/
def Value.pretty (depth : Nat) : Value → List Char
  | .null => "null".toList
  | .bool true => "true".toList
  | .bool false => "false".toList
  | .number n => n.text.toList
  | .text s => writeText s
  | .list [] => ['[', ']']
  | .list (v :: vs) => '[' :: prettyItems (depth + 1) (v :: vs) ++ newLine depth ++ [']']
  | .object [] => ['\x7b', '\x7d']
  | .object (m :: ms) =>
    '\x7b' :: prettyMembers (depth + 1) (m :: ms) ++ newLine depth ++ ['\x7d']

def prettyItems (depth : Nat) : List Value → List Char
  | [] => []
  | [v] => newLine depth ++ v.pretty depth
  | v :: vs => newLine depth ++ v.pretty depth ++ ',' :: prettyItems depth vs

def prettyMembers (depth : Nat) : List (String × Value) → List Char
  | [] => []
  | [(name, v)] => newLine depth ++ writeText name ++ [':', ' '] ++ v.pretty depth
  | (name, v) :: ms =>
    newLine depth ++ writeText name ++ [':', ' '] ++ v.pretty depth ++
      ',' :: prettyMembers depth ms

end

/-- The value on one line. -/
def Value.line (v : Value) : String := String.ofList v.compact

/-- The value over several lines. -/
def Value.page (v : Value) : String := String.ofList (v.pretty 0)

/-! ## Sorted members -/

def insertMember (m : String × Value) : List (String × Value) → List (String × Value)
  | [] => [m]
  | n :: ms => if n.1 < m.1 then n :: insertMember m ms else m :: n :: ms

mutual

/-- The same value with the members of every object in the order of their names. -/
def Value.sorted : Value → Value
  | .list items => .list (sortedItems items)
  | .object members => .object (sortedMembers members)
  | v => v

def sortedItems : List Value → List Value
  | [] => []
  | v :: vs => v.sorted :: sortedItems vs

def sortedMembers : List (String × Value) → List (String × Value)
  | [] => []
  | (name, v) :: ms => insertMember (name, v.sorted) (sortedMembers ms)

end

end CalendarRules.Json
