import CalendarRules.Command.Completions
import CalendarRules.Command.Failure
import CalendarRules.Command.Parse
import CalendarRules.View.Preview
import CalendarRules.View.Query
import CalendarRules.View.Report

/-! # Running a command

A run starts from files, an input and an environment, and ends with what is printed and the files
after it. Nothing else is seen or changed.
-/

namespace CalendarRules

/-- What a run starts from. -/
structure Session where
  env : Environment
  files : FileTree
  input : Content := .text ""
  deriving DecidableEq, Repr

/-- What a run ends with. -/
structure Ending where
  out : String := ""
  /-- Remarks beside the output. -/
  notes : String := ""
  failure : Option Failure := none
  files : FileTree
  deriving DecidableEq, Repr

/-- How a command writes. -/
structure Manner where
  json : Bool
  colours : Bool
  quiet : Bool
  verbose : Bool
  deriving DecidableEq, Repr

namespace Manner

/-- Colours are on unless something turns them off. -/
def of (env : Environment) (p : Preferences) (c : Config) : Manner where
  json := p.json
  colours := !p.noColour && !isSet env.noColour && c.colour != some false
  quiet := p.quiet
  verbose := p.verbose

/-- JSON goes before quiet, and quiet before text. -/
def output (m : Manner) (json : Json.Value) (text : String) : String :=
  if m.json then line json.page else if m.quiet then "" else text

end Manner

/-- How much is logged. -/
inductive LogLevel where
  | debug
  | error
  | warn
  deriving DecidableEq, Repr

def LogLevel.name : LogLevel → String
  | debug => "debug"
  | error => "error"
  | warn => "warn"

def Preferences.logLevel (p : Preferences) : LogLevel :=
  if p.verbose then .debug else if p.quiet then .error else .warn

namespace Session

/-- A run that prints and changes no files. -/
def prints (s : Session) (out : String) : Ending := { out, files := s.files }

def fails (s : Session) (f : Failure) : Ending := { failure := some f, files := s.files }

def ending (s : Session) (result : Except Failure Ending) : Ending :=
  match result with
  | .ok e => e
  | .error f => s.fails f

/-! ## Inputs -/

def readEvents (s : Session) (path : String) : Except Failure (List Event) := do
  let p := Path.ofString path
  let text ←
    if p.isStandardInput then s.input.text?.mapError .input
    else (s.files.readText p).mapError fun f => .events (.unreadable path f)
  (Feed.parse text).mapError fun f => .events (.feed f)

def readBook (s : Session) (path : String) : Except Failure RuleBook := do
  let text ← (s.files.readText (Path.ofString path)).mapError fun f => .rules (.unreadable path f)
  match RuleBook.ofString? text with
  | some book => .ok book
  | none => .error (.rules (.malformed path))

def configPath (s : Session) (p : Preferences) : Except Failure String :=
  (Config.locate s.env p.configPath).mapError .config

def loadConfig (s : Session) (p : Preferences) : Except Failure Config := do
  (Config.load s.files (← s.configPath p)).mapError .config

/-! ## Queries and rules -/

def check (s : Session) (m : Manner) (query : String) : Except Failure Ending := do
  let q ← (Query.parse query).mapError .query
  .ok (s.prints (m.output q.summary (q.tree m.colours)))

def preview (s : Session) (m : Manner) (query events : String) (limit : Nat) :
    Except Failure Ending := do
  let es ← s.readEvents events
  let p ← (Preview.ofText query es limit).mapError .query
  let note := line ("Evaluated " ++ p.query ++ " against " ++ toString es.length ++ " events")
  .ok {
    s.prints (m.output p.toValue (p.table m.colours)) with
    notes := if m.verbose then note else "" }

def emptyBookNote : String :=
  line "No rules or fingerprints configured; every event will be unmatched."

def applyNote (c : Classifier) (events : List Event) : String :=
  line ("Applying " ++ toString c.size ++ " rules (" ++ toString c.skipped.length ++
    " skipped) to " ++ toString events.length ++ " events")

/-- The note on an empty book comes before the events are read. -/
def applyBook (s : Session) (m : Manner) (book : RuleBook) (events : String) (matchedOnly : Bool) :
    Ending :=
  let note := if book.isEmpty && !m.quiet then emptyBookNote else ""
  match s.readEvents events with
  | .error f => { s.fails f with notes := note }
  | .ok es =>
    let c := Classifier.ofBook book
    let view : ReportView := ⟨c.apply es, es, c.skipped, matchedOnly⟩
    { s.prints (m.output view.toValue (view.table m.colours)) with
      notes := note ++ if m.verbose then applyNote c es else "" }

def apply (s : Session) (m : Manner) (config : Config) (events : String) (rules : Option String)
    (matchedOnly : Bool) : Except Failure Ending := do
  let book ←
    match rules with
    | some path => s.readBook path
    | none => .ok config.book
  .ok (s.applyBook m book events matchedOnly)

/-! ## The configuration -/

def ruleLine (r : Rule) : String :=
  line ("  " ++ r.id ++ " [" ++ toString r.priority ++ "] " ++ r.query ++ " -> " ++
    r.target.shown ++ if r.enabled then "" else " (disabled)")

def fingerprintLine (f : Fingerprint) : String :=
  line ("  " ++ f.projectName.getD f.projectId ++ ": " ++ toString f.domains.length ++
    " domains, " ++ toString f.emails.length ++ " emails, " ++ toString f.keywords.length ++
    " keywords")

def shownFlag (b : Bool) : String := if b then "true" else "false"

def configText (c : Config) : String :=
  let colour :=
    match c.colour with
    | some on => line ("  color: " ++ shownFlag on)
    | none => ""
  line "[output]" ++ colour ++ line "" ++ line "[preview]" ++
    line ("  limit: " ++ toString c.previewLimit) ++ line "" ++
    line ("rules: " ++ toString c.book.rules.length) ++ String.join (c.book.rules.map ruleLine) ++
    line "" ++ line ("fingerprints: " ++ toString c.book.fingerprints.length) ++
    String.join (c.book.fingerprints.map fingerprintLine)

def configTitle (colours : Bool) : String :=
  Text.Style.bold.paint colours (Text.Style.green.paint colours "Configuration")

def configPage (m : Manner) (path : String) (isThere : Bool) (c : Config) : String :=
  line (configTitle m.colours) ++ line "" ++ line ("File: " ++ path) ++
    line ("Exists: " ++ shownFlag isThere) ++ line "" ++
    if isThere then configText c
    else line "(No config file exists. Run 'tsr config init' to create one.)"

def hasFile (s : Session) (path : String) : Bool := s.files.has (Path.ofString path)

def showConfig (s : Session) (m : Manner) (p : Preferences) : Except Failure Ending := do
  let c ← s.loadConfig p
  let path ← s.configPath p
  let isThere := s.hasFile path
  let json : Json.Value :=
    .object [("path", .text path), ("exists", .bool isThere), ("config", c.toJson)]
  .ok (s.prints (m.output json.sorted (configPage m path isThere c)))

/-- The ending of a command that changes files: its output, or the fault that kept it from its
end. -/
def changed (result : FileTree × Option ConfigFault) (out : String) : Ending :=
  match result with
  | (files, none) => { out, files }
  | (files, some fault) => { failure := some (.config fault), files }

def initConfig (s : Session) (m : Manner) (p : Preferences) (force : Bool) :
    Except Failure Ending := do
  let path ← s.configPath p
  let json : Json.Value := .object [("status", .text "success"), ("path", .text path)]
  .ok (changed (Config.create s.files path force)
    (m.output json.sorted (line ("Created default config at: " ++ path))))

def setConfig (s : Session) (m : Manner) (p : Preferences) (key value : String) :
    Except Failure Ending := do
  let c ← s.loadConfig p
  let path ← s.configPath p
  let setting ← (Setting.ofKey key value).mapError fun f => .config (.setting f)
  let json : Json.Value :=
    .object
      [("status", .text "success"), ("key", .text key), ("value", .text value),
        ("path", .text path)]
  .ok (changed (Config.save s.files path (c.put setting))
    (m.output json.sorted (line ("Set " ++ key ++ " = " ++ value))))

/-- Quiet does not hold back the path. -/
def printPath (s : Session) (m : Manner) (p : Preferences) : Except Failure Ending := do
  let path ← s.configPath p
  let json : Json.Value := .object [("path", .text path), ("exists", .bool (s.hasFile path))]
  .ok (s.prints (if m.json then line json.sorted.page else line path))

def configCommand (s : Session) (m : Manner) (p : Preferences) :
    ConfigCommand → Except Failure Ending
  | .show => s.showConfig m p
  | .init force => s.initConfig m p force
  | .set key value => s.setConfig m p key value
  | .path => s.printPath m p

/-! ## Any command -/

def greeting : String :=
  line "tsr - timesheet classification rules" ++ line "Use --help for usage information"

/-- The configuration that decides the manner of a command on the configuration: the defaults if
it cannot be loaded. -/
def configOrDefault (s : Session) (p : Preferences) : Config :=
  match s.loadConfig p with
  | .ok c => c
  | .error _ => {}

def runCommand (s : Session) (p : Preferences) : Command → Except Failure Ending
  | .config command => s.configCommand (.of s.env p (s.configOrDefault p)) p command
  | .completions shell => .ok (s.prints shell.script)
  | .check query => do
    let c ← s.loadConfig p
    s.check (.of s.env p c) query
  | .preview query events limit => do
    let c ← s.loadConfig p
    s.preview (.of s.env p c) query events (limit.getD c.previewLimit)
  | .apply events rules matchedOnly => do
    let c ← s.loadConfig p
    s.apply (.of s.env p c) c events rules matchedOnly

def run (s : Session) (i : Invocation) : Ending :=
  match i.command with
  | none => s.prints (if i.preferences.quiet then "" else greeting)
  | some command => s.ending (s.runCommand i.preferences command)

end Session

/-! ## What a run looks at -/

/-- The events that a command reads. -/
def Command.eventsPath? : Command → Option String
  | .preview _ events _ | .apply events _ _ => some events
  | _ => none

def Command.rulesPath? : Command → Option String
  | .apply _ rules _ => rules
  | _ => none

namespace Invocation

def readsInput (i : Invocation) : Bool :=
  match i.command.bind Command.eventsPath? with
  | some path => (Path.ofString path).isStandardInput
  | none => false

/-- Every path that the command may read or write. -/
def paths (env : Environment) (i : Invocation) : List String :=
  (Config.locate env i.preferences.configPath).toOption.toList ++
    (i.command.bind Command.eventsPath?).toList ++ (i.command.bind Command.rulesPath?).toList

end Invocation

end CalendarRules
