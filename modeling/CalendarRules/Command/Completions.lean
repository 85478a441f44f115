import CalendarRules.Command.Level
import CalendarRules.View.Label

/-! # Words to complete a command line with -/

namespace CalendarRules

namespace Level

/-- The names of the levels below, and the flags with two hyphens. -/
def words (l : Level) : List String :=
  l.below.map (·.1) ++ l.flags.map fun f => "--" ++ f.longName

def wordList (l : Level) : String := String.intercalate " " l.words

end Level

/-- A script that completes the words of the first level. -/
def Shell.script (s : Shell) : String :=
  let words := Level.root.wordList
  match s with
  | bash => line ("complete -W \"" ++ words ++ "\" tsr")
  | zsh => line "#compdef tsr" ++ line ("compadd " ++ words)
  | fish => line ("complete -c tsr -a \"" ++ words ++ "\"")
  | powershell =>
    let quoted := Level.root.words.map fun w => "'" ++ w ++ "'"
    line ("Register-ArgumentCompleter -Native -CommandName tsr -ScriptBlock \x7b " ++
      String.intercalate ", " quoted ++ " \x7d")

end CalendarRules
