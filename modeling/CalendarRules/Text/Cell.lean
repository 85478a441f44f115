/-! # Table cells: text cut or padded to a number of characters -/

namespace CalendarRules.Text

/-- The text, and spaces after it up to `width` characters. Longer text stays whole. -/
def padRight (width : Nat) (s : String) : String :=
  s ++ String.ofList (List.replicate (width - s.length) ' ')

/-- The text, or so much of its start that it has `width` characters with `marker` after it. -/
def cutWith (marker : String) (width : Nat) (s : String) : String :=
  if s.length ≤ width then s
  else String.ofList (s.toList.take (width - marker.length)) ++ marker

/-- A text cut to `width` characters, with three dots for what is missing. -/
def cut (width : Nat) (s : String) : String := cutWith "..." width s

/-- An identifier is cut to its first eight characters. -/
def cutId (id : String) : String := cutWith "" 8 id

end CalendarRules.Text
