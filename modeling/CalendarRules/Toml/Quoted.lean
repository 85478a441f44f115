import CalendarRules.Toml.Gap
import CalendarRules.Toml.Number

/-! # Text in a document

Text stands in double quotes with escapes, or in single quotes as it is. Three quotes of a kind
let it go on over lines.
-/

namespace CalendarRules.Toml

/-! ## Reading -/

/-- The character that a one-letter escape stands for. -/
def shortEscape? (c : Char) : Option Char :=
  if c = '"' || c = '\\' then some c
  else if c = 'b' then some '\x08'
  else if c = 't' then some '\t'
  else if c = 'n' then some '\n'
  else if c = 'f' then some '\x0c'
  else if c = 'r' then some '\r'
  else none

/-- The character with this number in hexadecimal digits. -/
def numbered? (digits : List Char) : Option Char := do
  let n := ofDigits 16 (← digits.mapM (digitValue? 16))
  if n.isValidChar then some (Char.ofNat n) else none

/-- One character before what was read of the text. -/
def before (c : Char) (found : Option (List Char × List Char)) : Option (List Char × List Char) :=
  found.map fun (text, rest) => (c :: text, rest)

/-- Text on one line up to its closing double quote, which is left out. -/
def readBasic? : List Char → Option (List Char × List Char)
  | '"' :: cs => some ([], cs)
  | '\\' :: 'u' :: a :: b :: c :: d :: cs => do before (← numbered? [a, b, c, d]) (readBasic? cs)
  | '\\' :: 'U' :: a :: b :: c :: d :: e :: f :: g :: h :: cs => do
    before (← numbered? [a, b, c, d, e, f, g, h]) (readBasic? cs)
  | '\\' :: c :: cs => do before (← shortEscape? c) (readBasic? cs)
  | c :: cs => if isPlain c && c != '\\' then before c (readBasic? cs) else none
  | [] => none

/-- Text on one line up to its closing single quote. -/
def readLiteral? : List Char → Option (List Char × List Char)
  | '\'' :: cs => some ([], cs)
  | c :: cs => if isPlain c then before c (readLiteral? cs) else none
  | [] => none

/-- After three closing quotes: up to two more belong to the text, so that it is they that come
first. -/
def closing (quote : Char) : List Char → List Char × List Char
  | c :: d :: cs =>
    if c = quote && d = quote then ([quote, quote], cs)
    else if c = quote then ([quote], d :: cs)
    else ([], c :: d :: cs)
  | [c] => if c = quote then ([quote], []) else ([], [c])
  | [] => ([], [])

/-- Where the reading of text over several lines stands. -/
inductive LineState where
  | inside
  /-- After a backslash and blanks that have to end with the line. -/
  | breaking
  /-- After such a line end, where blanks and breaks are passed over. -/
  | skipping
  deriving DecidableEq, Repr

/-- Text over several lines up to three double quotes. A backslash at the end of a line joins it to
the next text. Line breaks count as line feeds. -/
def readBasicLines? (state : LineState) : List Char → Option (List Char × List Char)
  | [] => none
  | '\n' :: cs =>
    if state = .inside then before '\n' (readBasicLines? .inside cs)
    else readBasicLines? .skipping cs
  | '\r' :: '\n' :: cs =>
    if state = .inside then before '\n' (readBasicLines? .inside cs)
    else readBasicLines? .skipping cs
  | '"' :: '"' :: '"' :: cs =>
    if state = .breaking then none else some (closing '"' cs)
  | '\\' :: 'u' :: a :: b :: c :: d :: cs =>
    if state = .breaking then none
    else do before (← numbered? [a, b, c, d]) (readBasicLines? .inside cs)
  | '\\' :: 'U' :: a :: b :: c :: d :: e :: f :: g :: h :: cs =>
    if state = .breaking then none
    else do before (← numbered? [a, b, c, d, e, f, g, h]) (readBasicLines? .inside cs)
  | '\\' :: c :: cs =>
    if state = .breaking then none
    else if isBlank c || c = '\n' || c = '\r' then readBasicLines? .breaking (c :: cs)
    else do before (← shortEscape? c) (readBasicLines? .inside cs)
  | c :: cs =>
    if isBlank c && state != .inside then readBasicLines? state cs
    else if state = .breaking then none
    else if isPlain c && c != '\\' then before c (readBasicLines? .inside cs)
    else none

/-- Text over several lines up to three single quotes. -/
def readLiteralLines? : List Char → Option (List Char × List Char)
  | [] => none
  | '\n' :: cs => before '\n' (readLiteralLines? cs)
  | '\r' :: '\n' :: cs => before '\n' (readLiteralLines? cs)
  | '\'' :: '\'' :: '\'' :: cs => some (closing '\'' cs)
  | c :: cs => if isPlain c then before c (readLiteralLines? cs) else none

/-- A line break right after three opening quotes does not count. -/
def skipFirstBreak : List Char → List Char
  | '\n' :: cs => cs
  | '\r' :: '\n' :: cs => cs
  | cs => cs

/-- Text on one line, with its opening quote. -/
def readQuoted? : List Char → Option (List Char × List Char)
  | '"' :: cs => readBasic? cs
  | '\'' :: cs => readLiteral? cs
  | _ => none

/-- Text in any of its forms, with its opening quotes. -/
def readText? : List Char → Option (List Char × List Char)
  | '"' :: '"' :: '"' :: cs => readBasicLines? .inside (skipFirstBreak cs)
  | '\'' :: '\'' :: '\'' :: cs => readLiteralLines? (skipFirstBreak cs)
  | cs => readQuoted? cs

/-! ## Writing -/

inductive Form where
  | basic
  | literal
  | basicLines
  | literalLines
  deriving DecidableEq, Repr

/-- The longest run of a character, where `run` of them stand just before. -/
def longestRun (q : Char) (run : Nat) : List Char → Nat
  | [] => run
  | c :: cs => if c = q then longestRun q (run + 1) cs else max run (longestRun q 0 cs)

/-- A character that only an escape can give. A tab and a line feed are none. -/
def isControl (c : Char) : Bool := !isPlain c && c != '\n'

namespace Form

/-- The form gives the text, and without any escapes. -/
def suits (cs : List Char) : Form → Bool
  | basic => !cs.any fun c => isControl c || c == '\\' || c == '"' || c == '\n'
  | literal => !cs.any fun c => isControl c || c == '\'' || c == '\n'
  | basicLines => !cs.any (fun c => isControl c || c == '\\') && longestRun '"' 0 cs ≤ 2
  | literalLines => !cs.any isControl && longestRun '\'' 0 cs ≤ 2

/-- The first form that suits, or double quotes with escapes. -/
def forText (cs : List Char) : Form :=
  match [basic, literal, basicLines, literalLines].find? (·.suits cs) with
  | some form => form
  | none => if cs.contains '\n' then basicLines else basic

end Form

/-- The last four hexadecimal digits of a number, in capitals. -/
def fourDigits (n : Nat) : List Char :=
  [n / 4096, n / 256, n / 16, n].map fun d => (Nat.digitChar (d % 16)).toUpper

/-- The escape of a character, or the character. Double quotes are dealt with elsewhere. -/
def escapeChar (overLines : Bool) (c : Char) : List Char :=
  if c = '\x08' then ['\\', 'b']
  else if c = '\t' then ['\\', 't']
  else if c = '\n' then if overLines then [c] else ['\\', 'n']
  else if c = '\x0c' then ['\\', 'f']
  else if c = '\r' then ['\\', 'r']
  else if c = '\\' then ['\\', '\\']
  else if isControl c then '\\' :: 'u' :: fourDigits c.toNat
  else [c]

/-- Over several lines two double quotes in a row may stand as they are. -/
def quotesInRow (overLines : Bool) : Nat := if overLines then 2 else 0

/-- Text with escapes, where `run` double quotes stand just before. -/
def escapeText (overLines : Bool) (run : Nat) : List Char → List Char
  | [] => []
  | c :: cs =>
    if c = '"' then
      if run < quotesInRow overLines then '"' :: escapeText overLines (run + 1) cs
      else '\\' :: '"' :: escapeText overLines 0 cs
    else escapeChar overLines c ++ escapeText overLines 0 cs

/-- Text that has a line break starts on a line of its own. -/
def firstBreak (cs : List Char) : List Char := if cs.contains '\n' then ['\n'] else []

def Form.write (cs : List Char) : Form → List Char
  | basic => '"' :: escapeText false 0 cs ++ ['"']
  | literal => '\'' :: cs ++ ['\'']
  | basicLines => ['"', '"', '"'] ++ firstBreak cs ++ escapeText true 0 cs ++ ['"', '"', '"']
  | literalLines => ['\'', '\'', '\''] ++ firstBreak cs ++ cs ++ ['\'', '\'', '\'']

def writeText (cs : List Char) : List Char := (Form.forText cs).write cs

end CalendarRules.Toml
