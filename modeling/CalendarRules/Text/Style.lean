/-! # Terminal styles -/

namespace CalendarRules.Text

inductive Style where
  | red
  | green
  | yellow
  | cyan
  | bold
  | dim
  deriving DecidableEq, Repr

namespace Style

/-- The code that turns the style on. -/
def start : Style → String
  | red => "31"
  | green => "32"
  | yellow => "33"
  | cyan => "36"
  | bold => "1"
  | dim => "2"

/-- The code that turns the style off. A colour goes back to the default colour. -/
def stop : Style → String
  | bold | dim => "0"
  | _ => "39"

def sequence (code : String) : String := "\x1b[" ++ code ++ "m"

/-- The text in this style, or as it is when colours are off. -/
def paint (style : Style) (colours : Bool) (text : String) : String :=
  if colours then sequence style.start ++ text ++ sequence style.stop else text

end Style

end CalendarRules.Text
