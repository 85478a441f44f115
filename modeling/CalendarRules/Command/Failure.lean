import CalendarRules.Config.Store
import CalendarRules.Event.Feed
import CalendarRules.Json.Write
import CalendarRules.Query.Fault
import CalendarRules.View.Label

/-! # Why a command fails -/

namespace CalendarRules

inductive EventsFault where
  | unreadable (path : String) (fault : FileFault)
  | feed (fault : Feed.Fault)
  deriving DecidableEq, Repr

def EventsFault.message : EventsFault → String
  | unreadable path f => "Failed to read " ++ path ++ ": " ++ f.message
  | feed f => f.message

inductive RulesFault where
  | unreadable (path : String) (fault : FileFault)
  | malformed (path : String)
  deriving DecidableEq, Repr

def RulesFault.message : RulesFault → String
  | unreadable path f => "Failed to read " ++ path ++ ": " ++ f.message
  | malformed path => "Failed to parse " ++ path

inductive Failure where
  | query (e : Query.Error)
  | config (fault : ConfigFault)
  | events (fault : EventsFault)
  | rules (fault : RulesFault)
  | input (fault : FileFault)
  deriving DecidableEq, Repr

namespace Failure

def code : Failure → String
  | query _ => "QUERY_ERROR"
  | config _ => "CONFIG_ERROR"
  | events _ => "EVENTS_ERROR"
  | rules _ => "RULES_ERROR"
  | input _ => "IO_ERROR"

def message : Failure → String
  | query e => "invalid query: " ++ e.message
  | config f => "configuration error: " ++ f.message
  | events f => "events error: " ++ f.message
  | rules f => "rules error: " ++ f.message
  | input f => "I/O error: " ++ f.message

def exitStatus : Failure → Nat
  | query _ => 2
  | _ => 1

/-- The last words of a run that fails. -/
def report (json : Bool) (f : Failure) : String :=
  if json then
    let error : Json.Value := .object [("code", .text f.code), ("message", .text f.message)]
    line (Json.Value.object [("error", error)]).page
  else line ("Error: " ++ f.message)

end Failure

end CalendarRules
