import CalendarRules.Config.Basic

/-! # Settings that can be changed one by one -/

namespace CalendarRules

inductive Setting where
  | colour (on : Bool)
  | limit (n : Nat)
  deriving DecidableEq, Repr

/-- Why a key and a value are no setting. -/
inductive SettingFault where
  | unknownKey (key : String)
  | badLimit (value : String)
  | badFlag (value : String)
  deriving DecidableEq, Repr

def SettingFault.message : SettingFault → String
  | unknownKey key =>
    "Unknown config key '" ++ key ++ "'. Valid keys: output.color, preview.limit"
  | badLimit value =>
    "Invalid preview.limit value '" ++ value ++ "'. Use a non-negative integer"
  | badFlag value =>
    "Invalid boolean value '" ++ value ++ "'. Use true/false, yes/no, 1/0, or on/off"

/-- A natural number of 64 bits. A plus sign may stand in front. -/
def readCount? (s : String) : Option Nat :=
  let digits :=
    match s.toList with
    | '+' :: cs => cs
    | cs => cs
  if digits.isEmpty || !digits.all Char.isDigit then none
  else
    let n := Toml.ofDigits 10 (digits.filterMap (Toml.digitValue? 10))
    if n ≤ 0xffffffffffffffff then some n else none

namespace Setting

/-- A flag in any letter case. -/
def readFlag? (value : String) : Option Bool :=
  let word := Text.lower value
  if word ∈ ["true", "yes", "1", "on"] then some true
  else if word ∈ ["false", "no", "0", "off"] then some false
  else none

def ofKey (key value : String) : Except SettingFault Setting :=
  if key = "output.color" then
    match readFlag? value with
    | some on => .ok (.colour on)
    | none => .error (.badFlag value)
  else if key = "preview.limit" then
    match readCount? value with
    | some n => .ok (.limit n)
    | none => .error (.badLimit value)
  else .error (.unknownKey key)

end Setting

def Config.put (c : Config) : Setting → Config
  | .colour on => { c with colour := some on }
  | .limit n => { c with limit := some n }

end CalendarRules
