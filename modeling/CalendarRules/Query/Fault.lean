/-! # Why a text is no query -/

namespace CalendarRules.Query

/-- A fault and its place. While a text is read the place is what is left of the text there. -/
inductive Fault (Place : Type) where
  | expectedProperty (found : Char) (place : Place)
  | expectedColon (property : String) (place : Place)
  | expectedValue (place : Place)
  | unclosedQuote (place : Place)
  | unclosedParenthesis (place : Place)
  | unexpectedCloseParen (place : Place)
  deriving DecidableEq, Repr

namespace Fault

def map {P Q : Type} (f : P → Q) : Fault P → Fault Q
  | expectedProperty found p => .expectedProperty found (f p)
  | expectedColon property p => .expectedColon property (f p)
  | expectedValue p => .expectedValue (f p)
  | unclosedQuote p => .unclosedQuote (f p)
  | unclosedParenthesis p => .unclosedParenthesis (f p)
  | unexpectedCloseParen p => .unexpectedCloseParen (f p)

def place {P : Type} : Fault P → P
  | expectedProperty _ p | expectedColon _ p | expectedValue p | unclosedQuote p
  | unclosedParenthesis p | unexpectedCloseParen p => p

end Fault

/-- A fault with its place in bytes from the start of the trimmed text. -/
abbrev Error := Fault Nat

/-- The name of the kind of fault. -/
def Fault.kind {P : Type} : Fault P → String
  | expectedProperty .. => "ExpectedProperty"
  | expectedColon .. => "ExpectedColon"
  | expectedValue .. => "ExpectedValue"
  | unclosedQuote .. => "UnclosedQuote"
  | unclosedParenthesis .. => "UnclosedParenthesis"
  | unexpectedCloseParen .. => "UnexpectedCloseParen"

def Fault.message : Error → String
  | expectedProperty found p =>
    "expected property name at position " ++ toString p ++ ", found '" ++ found.toString ++ "'"
  | expectedColon property _ => "expected ':' after property '" ++ property ++ "'"
  | expectedValue p => "expected value at position " ++ toString p
  | unclosedQuote p => "unclosed quoted string starting at position " ++ toString p
  | unclosedParenthesis p => "unclosed parenthesis opened at position " ++ toString p
  | unexpectedCloseParen p => "unexpected ')' at position " ++ toString p

end CalendarRules.Query
