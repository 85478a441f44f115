import CalendarRules.Command.Level
import CalendarRules.View.Label

/-! # What is printed when no command is run -/

namespace CalendarRules

def versionLine : String := line "tsr 0.1.0"

def Flag.usage (f : Flag) : String :=
  let value := if f.value?.isSome then " <" ++ f.longName ++ ">" else ""
  let short :=
    match f.shortName? with
    | some c => "-" ++ c.toString ++ ", "
    | none => "    "
  line ("  " ++ short ++ "--" ++ f.longName ++ value)

/-- The commands and the flags of the first level. -/
def usage : String :=
  line "tsr - classification rules for timesheet calendar events" ++ line "" ++
    line "Usage: tsr [OPTIONS] [COMMAND]" ++ line "" ++ line "Commands:" ++
    String.join (Level.root.below.map fun l => line ("  " ++ l.1)) ++ line "" ++ line "Options:" ++
    String.join (Level.root.flags.map Flag.usage)

namespace Stop

def message : Stop → String
  | help => usage
  | version => versionLine
  | invalidValue => line "error: a value is missing or not one of the possible ones"
  | unknownArgument => line "error: unexpected argument found"
  | missingArgument => line "error: a required argument was not provided"
  | conflict => line "error: arguments that cannot be used together, or one used twice"
  | invalidSubcommand => line "error: unrecognized subcommand"
  | badNumber => line "error: a value is no natural number of 64 bits"
  | unwantedValue => line "error: a value for an argument that takes none"

end Stop

end CalendarRules
