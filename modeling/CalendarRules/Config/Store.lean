import CalendarRules.Config.Setting
import CalendarRules.Files.Tree

/-! # Where the configuration is kept -/

namespace CalendarRules

/-- The variables that a run can see. -/
structure Environment where
  configPath : Option String := none
  configHome : Option String := none
  home : Option String := none
  noColour : Option String := none
  deriving DecidableEq, Repr

/-- An empty variable counts as one that is not set. -/
def isSet : Option String → Bool
  | some s => !s.isEmpty
  | none => false

inductive ConfigFault where
  | noFolder
  | unreadable (fault : FileFault)
  | malformed
  | folderNotMade (fault : FileFault)
  | noText
  | notWritten (fault : FileFault)
  | notCreated (fault : FileFault)
  | present (path : String)
  | setting (fault : SettingFault)
  deriving DecidableEq, Repr

def ConfigFault.message : ConfigFault → String
  | noFolder => "Could not determine config directory"
  | unreadable f => "Failed to read config: " ++ f.message
  | malformed => "Failed to parse config"
  | folderNotMade f => "Failed to create config directory: " ++ f.message
  | noText => "Failed to serialize config"
  | notWritten f => "Failed to write config: " ++ f.message
  | notCreated f => "Failed to create config file: " ++ f.message
  | present path =>
    "Config file already exists at " ++ path ++ " (use --force to overwrite)"
  | setting f => f.message

namespace Config

/-- The folder of the file when no path is given. -/
def folder? (env : Environment) : Option String :=
  if isSet env.configHome then env.configHome.map (Path.join · "tsr")
  else if isSet env.home then
    env.home.map fun home => Path.join (Path.join home ".config") "tsr"
  else none

/-- The path of the file. A path that is given goes first. -/
def locate (env : Environment) (given : Option String) : Except ConfigFault String :=
  match given, folder? env with
  | some path, _ => .ok path
  | none, some folder => .ok (Path.join folder "config.toml")
  | none, none => .error .noFolder

/-- A missing file stands for the defaults. -/
def load (t : FileTree) (path : String) : Except ConfigFault Config :=
  let p := Path.ofString path
  if t.has p then do
    match ofString? (← (t.readText p).mapError .unreadable) with
    | some c => .ok c
    | none => .error .malformed
  else .ok {}

/-- Writes the file, in a folder that is made if it is missing. The folder stays when the text
cannot be made or written. -/
def save (t : FileTree) (path : String) (c : Config) : FileTree × Option ConfigFault :=
  let p := Path.ofString path
  match t.makeParent p with
  | (t, some fault) => (t, some (.folderNotMade fault))
  | (t, none) =>
    match c.toText? with
    | none => (t, some .noText)
    | some text =>
      match t.writeText p text with
      | .error fault => (t, some (.notWritten fault))
      | .ok t => (t, none)

/-! ## A first file -/

def firstText : String :=
  "# tsr - timesheet classification rules

# Config schema version (do not modify)
version = 1

# Output preferences
[output]
# color = true              # Enable colors (respects NO_COLOR env)

# Rule previews
[preview]
# limit = 50

# Explicit rules, tried by priority (high first), then display_order.
# target_type is \"project\" (with project_id) or \"did_not_attend\".
#
# [[rules]]
# id = \"acme-sync\"
# name = \"Acme weekly sync\"
# query = 'title:\"weekly sync\" (domain:acme.com OR domain:acme.io)'
# target_type = \"project\"
# project_id = \"acme\"
# priority = 10
#
# [[rules]]
# id = \"declined\"
# query = \"response:declined\"
# target_type = \"did_not_attend\"

# Project fingerprints, tried after every explicit rule.
#
# [[fingerprints]]
# project_id = \"globex\"
# project_name = \"Globex\"
# domains = [\"globex.com\"]
# emails = []
# keywords = [\"Globex\"]
"

/-- Writes a file that holds nothing but explanations. -/
def create (t : FileTree) (path : String) (force : Bool) : FileTree × Option ConfigFault :=
  let p := Path.ofString path
  if t.has p && !force then (t, some (.present path))
  else
    match t.makeParent p with
    | (t, some fault) => (t, some (.folderNotMade fault))
    | (t, none) =>
      match t.writeText p firstText with
      | .error fault => (t, some (.notCreated fault))
      | .ok t => (t, none)

end Config

end CalendarRules
