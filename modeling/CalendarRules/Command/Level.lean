import CalendarRules.Command.Basic

/-! # The levels of a command line

A command line names a command, and perhaps a command below it. Every level has flags and
positional arguments of its own, and all of the common flags.
-/

namespace CalendarRules

/-- What the text of an argument has to be. -/
inductive ValueKind where
  | text
  | path
  | count
  | shell
  deriving DecidableEq, Repr

inductive Flag where
  | verbose
  | quiet
  | json
  | noColour
  | config
  | help
  | version
  | events
  | limit
  | rules
  | matchedOnly
  | force
  deriving DecidableEq, Repr

namespace Flag

def longName : Flag → String
  | verbose => "verbose"
  | quiet => "quiet"
  | json => "json"
  | noColour => "no-color"
  | config => "config"
  | help => "help"
  | version => "version"
  | events => "events"
  | limit => "limit"
  | rules => "rules"
  | matchedOnly => "matched-only"
  | force => "force"

def shortName? : Flag → Option Char
  | verbose => some 'v'
  | quiet => some 'q'
  | help => some 'h'
  | version => some 'V'
  | events => some 'e'
  | limit => some 'l'
  | rules => some 'r'
  | json | noColour | config | matchedOnly | force => none

/-- The kind of the value, for a flag that takes one. -/
def value? : Flag → Option ValueKind
  | config | events | rules => some .path
  | limit => some .count
  | _ => none

/-- The flags that go with any command. -/
def common : List Flag := [verbose, quiet, json, noColour, config, help, version]

end Flag

/-- An argument that is told by its place. -/
inductive Positional where
  | query
  | key
  | value
  | shell
  deriving DecidableEq, Repr

def Positional.valueKind : Positional → ValueKind
  | .shell => .shell
  | _ => .text

inductive Level where
  | root
  | check
  | preview
  | apply
  | config
  | configShow
  | configInit
  | configSet
  | configPath
  | completions
  | help
  deriving DecidableEq, Repr

namespace Level

/-- The levels below, by their names. -/
def below : Level → List (String × Level)
  | root =>
    [("check", check), ("c", check), ("preview", preview), ("p", preview), ("apply", apply),
      ("config", config), ("completions", completions), ("help", help)]
  | config =>
    [("show", configShow), ("init", configInit), ("set", configSet), ("path", configPath),
      ("help", help)]
  | _ => []

def below? (l : Level) (name : String) : Option Level :=
  (l.below.find? (·.1 == name)).map (·.2)

def ownFlags : Level → List Flag
  | preview => [.events, .limit]
  | apply => [.events, .rules, .matchedOnly]
  | configInit => [.force]
  | _ => []

def flags (l : Level) : List Flag := Flag.common ++ l.ownFlags

def longFlag? (l : Level) (name : String) : Option Flag := l.flags.find? (·.longName == name)

def shortFlag? (l : Level) (c : Char) : Option Flag := l.flags.find? (·.shortName? == some c)

/-- In the order of their places. -/
def positionals : Level → List Positional
  | check | preview => [.query]
  | configSet => [.key, .value]
  | completions => [.shell]
  | _ => []

end Level

end CalendarRules
