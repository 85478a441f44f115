/-! # Commands, as they are understood from a command line -/

namespace CalendarRules

inductive Shell where
  | bash
  | zsh
  | fish
  | powershell
  deriving DecidableEq, Repr

namespace Shell

def all : List Shell := [bash, zsh, fish, powershell]

def name : Shell → String
  | bash => "bash"
  | zsh => "zsh"
  | fish => "fish"
  | powershell => "powershell"

def ofName? (name : String) : Option Shell := all.find? (·.name == name)

end Shell

inductive ConfigCommand where
  | «show»
  | init (force : Bool)
  | set (key value : String)
  | path
  deriving DecidableEq, Repr

inductive Command where
  | check (query : String)
  | preview (query events : String) (limit : Option Nat)
  | apply (events : String) (rules : Option String) (matchedOnly : Bool)
  | config (command : ConfigCommand)
  | completions (shell : Shell)
  deriving DecidableEq, Repr

/-- What may be said with any command. -/
structure Preferences where
  verbose : Bool := false
  quiet : Bool := false
  json : Bool := false
  noColour : Bool := false
  configPath : Option String := none
  deriving DecidableEq, Repr

/-- A command line that is understood. It may ask for no command at all. -/
structure Invocation where
  preferences : Preferences
  command : Option Command
  deriving DecidableEq, Repr

/-! ## Command lines that run no command -/

/-- Why a command line ends before a command is run. -/
inductive Stop where
  | help
  | version
  | invalidValue
  | unknownArgument
  | missingArgument
  | conflict
  | invalidSubcommand
  | badNumber
  | unwantedValue
  deriving DecidableEq, Repr

namespace Stop

def kind : Stop → String
  | help => "DisplayHelp"
  | version => "DisplayVersion"
  | invalidValue => "InvalidValue"
  | unknownArgument => "UnknownArgument"
  | missingArgument => "MissingRequiredArgument"
  | conflict => "ArgumentConflict"
  | invalidSubcommand => "InvalidSubcommand"
  | badNumber => "ValueValidation"
  | unwantedValue => "TooManyValues"

/-- Only help and version are a success. -/
def exitStatus : Stop → Nat
  | help | version => 0
  | _ => 2

end Stop

end CalendarRules
