import CalendarRules.Json.Basic

/-! # The structure of a JSON text

Reading is in two steps. The first finds the structure of the text and checks its grammar. The
second, on request, gives a part of it its value: it puts text together from escapes, rounds
numbers and limits the nesting. A part that nobody asks for only has to follow the grammar.
-/

namespace CalendarRules.Json

/-- A character of a text literal: itself, or a 16-bit unit from an escape. -/
inductive Piece where
  | plain (c : Char)
  | unit (n : Nat)
  deriving DecidableEq, Repr

/-- A number as it is written. Digits are given by their values. -/
structure Literal where
  negative : Bool
  whole : List Nat
  fraction : List Nat
  exponent : Option Int
  deriving DecidableEq, Repr

inductive Source where
  | null
  | bool (b : Bool)
  | number (l : Literal)
  | text (pieces : List Piece)
  | list (items : List Source)
  | object (members : List (List Piece × Source))
  deriving Repr

/-! ## Blanks and digits -/

def isSpace (c : Char) : Bool := c == ' ' || c == '\n' || c == '\t' || c == '\r'

def skipSpace (cs : List Char) : List Char := cs.dropWhile isSpace

def digitValue (c : Char) : Nat := c.toNat - '0'.toNat

/-- The digits at the start, and what follows them. -/
def readDigits (cs : List Char) : List Nat × List Char :=
  ((cs.takeWhile Char.isDigit).map digitValue, cs.dropWhile Char.isDigit)

/-- The number that decimal digits stand for. -/
def ofDigits (ds : List Nat) : Nat := ds.foldl (fun n d => 10 * n + d) 0

def hexValue? (c : Char) : Option Nat :=
  if c.isDigit then some (c.toNat - '0'.toNat)
  else if 'a' ≤ c && c ≤ 'f' then some (c.toNat - 'a'.toNat + 10)
  else if 'A' ≤ c && c ≤ 'F' then some (c.toNat - 'A'.toNat + 10)
  else none

/-! ## Numbers -/

/-- A point needs a digit after it. -/
def readFraction? : List Char → Option (List Nat × List Char)
  | '.' :: cs =>
    match readDigits cs with
    | ([], _) => none
    | found => some found
  | cs => some ([], cs)

/-- The mark of an exponent needs a digit after it and its sign. -/
def readExponent? (cs : List Char) : Option (Option Int × List Char) :=
  match cs with
  | c :: rest =>
    if c = 'e' || c = 'E' then
      let (negative, rest) :=
        match rest with
        | '-' :: rest => (true, rest)
        | '+' :: rest => (false, rest)
        | _ => (false, rest)
      match readDigits rest with
      | ([], _) => none
      | (ds, rest) =>
        let n : Int := ofDigits ds
        some (some (if negative then -n else n), rest)
    else some (none, cs)
  | [] => some (none, [])

/-- A zero stands alone before the point. -/
def readWhole? (cs : List Char) : Option (List Nat × List Char) :=
  match readDigits cs with
  | ([], _) => none
  | (0 :: _ :: _, _) => none
  | found => some found

def readNumber? (cs : List Char) : Option (Literal × List Char) := do
  let (negative, cs) :=
    match cs with
    | '-' :: cs => (true, cs)
    | _ => (false, cs)
  let (whole, cs) ← readWhole? cs
  let (fraction, cs) ← readFraction? cs
  let (exponent, cs) ← readExponent? cs
  some (⟨negative, whole, fraction, exponent⟩, cs)

/-! ## Text -/

/-- The character that a one-letter escape stands for. -/
def shortEscape? (c : Char) : Option Char :=
  if c = '"' || c = '\\' || c = '/' then some c
  else if c = 'b' then some '\x08'
  else if c = 'f' then some '\x0c'
  else if c = 'n' then some '\n'
  else if c = 'r' then some '\r'
  else if c = 't' then some '\t'
  else none

/-- The pieces up to the closing quote, which is left out. -/
def readPieces? : List Char → Option (List Piece × List Char)
  | '"' :: cs => some ([], cs)
  | '\\' :: 'u' :: a :: b :: c :: d :: cs => do
    let high := (← hexValue? a) * 16 + (← hexValue? b)
    let low := (← hexValue? c) * 16 + (← hexValue? d)
    let (ps, cs) ← readPieces? cs
    some (.unit (high * 256 + low) :: ps, cs)
  | '\\' :: c :: cs => do
    let c ← shortEscape? c
    let (ps, cs) ← readPieces? cs
    some (.plain c :: ps, cs)
  | c :: cs =>
    if c.toNat < 0x20 || c = '\\' then none
    else do
      let (ps, cs) ← readPieces? cs
      some (.plain c :: ps, cs)
  | [] => none

/-! ## Values -/

def readQuoted? (cs : List Char) : Option (List Piece × List Char) :=
  match cs with
  | '"' :: cs => readPieces? cs
  | _ => none

mutual

/-- One value at the start of the text. Each step takes a character, so the length of the text
is fuel enough. -/
def readSource? : Nat → List Char → Option (Source × List Char)
  | 0, _ => none
  | fuel + 1, cs =>
    match skipSpace cs with
    | '[' :: cs =>
      match skipSpace cs with
      | ']' :: cs => some (.list [], cs)
      | cs => do
        let (items, cs) ← readItems? fuel cs
        some (.list items, cs)
    | '\x7b' :: cs =>
      match skipSpace cs with
      | '\x7d' :: cs => some (.object [], cs)
      | cs => do
        let (members, cs) ← readMembers? fuel cs
        some (.object members, cs)
    | '"' :: cs => do
      let (pieces, cs) ← readPieces? cs
      some (.text pieces, cs)
    | 'n' :: 'u' :: 'l' :: 'l' :: cs => some (.null, cs)
    | 't' :: 'r' :: 'u' :: 'e' :: cs => some (.bool true, cs)
    | 'f' :: 'a' :: 'l' :: 's' :: 'e' :: cs => some (.bool false, cs)
    | cs => do
      let (l, cs) ← readNumber? cs
      some (.number l, cs)

/-- The items of a list that has at least one, and its closing bracket. -/
def readItems? : Nat → List Char → Option (List Source × List Char)
  | 0, _ => none
  | fuel + 1, cs => do
    let (item, cs) ← readSource? fuel cs
    match skipSpace cs with
    | ',' :: cs =>
      let (items, cs) ← readItems? fuel cs
      some (item :: items, cs)
    | ']' :: cs => some ([item], cs)
    | _ => none

/-- The members of an object that has at least one, and its closing brace. -/
def readMembers? : Nat → List Char → Option (List (List Piece × Source) × List Char)
  | 0, _ => none
  | fuel + 1, cs => do
    let (name, cs) ← readQuoted? (skipSpace cs)
    match skipSpace cs with
    | ':' :: cs =>
      let (value, cs) ← readSource? fuel cs
      match skipSpace cs with
      | ',' :: cs =>
        let (members, cs) ← readMembers? fuel cs
        some ((name, value) :: members, cs)
      | '\x7d' :: cs => some ([(name, value)], cs)
      | _ => none
    | _ => none

end

/-- The structure of a whole text: one value with nothing but blanks around it. -/
def Source.ofChars? (cs : List Char) : Option Source := do
  let (source, rest) ← readSource? (cs.length + 1) cs
  if (skipSpace rest).isEmpty then some source else none

def Source.ofString? (s : String) : Option Source := ofChars? s.toList

end CalendarRules.Json
