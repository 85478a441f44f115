import CalendarRules.Text.Blank
import CalendarRules.Text.Lower
import CalendarRules.Text.Quoted
import CalendarRules.Text.Distance
import CalendarRules.Text.Style
import CalendarRules.Text.Cell
import CalendarRules.Decimal.Binary
import CalendarRules.Decimal.Shortest
import CalendarRules.Json.Basic
import CalendarRules.Json.Write
import CalendarRules.Json.Source
import CalendarRules.Json.Read
import CalendarRules.Query.Render
import CalendarRules.Query.Parse
import CalendarRules.Property
import CalendarRules.Time.Stamp
import CalendarRules.Event.Row
import CalendarRules.Event.Encode
import CalendarRules.Event.Feed
import CalendarRules.Query.Matches
import CalendarRules.Rule.Decode
import CalendarRules.Rule.Report
import CalendarRules.Query.Preview
import CalendarRules.View.Query
import CalendarRules.View.Preview
import CalendarRules.View.Report
import CalendarRules.Toml.Basic
import CalendarRules.Toml.Gap
import CalendarRules.Toml.Number
import CalendarRules.Toml.Time
import CalendarRules.Toml.Quoted
import CalendarRules.Toml.Table
import CalendarRules.Toml.Read
import CalendarRules.Toml.Write
import CalendarRules.Files.Path
import CalendarRules.Files.Tree
import CalendarRules.Config.Basic
import CalendarRules.Config.Setting
import CalendarRules.Config.Store
import CalendarRules.Command.Basic
import CalendarRules.Command.Level
import CalendarRules.Command.Parse
import CalendarRules.Command.Failure
import CalendarRules.Command.Completions
import CalendarRules.Command.Run
import CalendarRules.Command.Usage
import CalendarRules.Main
import CalendarRules.Proofs.Text.Fold
import CalendarRules.Proofs.Query.Parsing
import CalendarRules.Proofs.Query.RoundTrip
import CalendarRules.Proofs.Query.Catalog
import CalendarRules.Proofs.Query.OwnText
import CalendarRules.Proofs.Query.Faults
import CalendarRules.Proofs.Query.Continuation
import CalendarRules.Proofs.Event.Row
import CalendarRules.Proofs.Rule.FirstMatch
import CalendarRules.Proofs.Rule.Fingerprint
import CalendarRules.Proofs.Rule.Preview
import CalendarRules.Proofs.Event.Stored
import CalendarRules.Proofs.Command.Trace
import CalendarRules.Proofs.Command.Quiet
import CalendarRules.Proofs.Command.Settings
import CalendarRules.Proofs.Query.Leftmost
import CalendarRules.Proofs.Query.Joining
import CalendarRules.Proofs.Query.Monotone
import CalendarRules.Proofs.Query.Rewriting
import CalendarRules.Proofs.Rule.Accounting
import CalendarRules.Proofs.Rule.WrittenOut
import CalendarRules.Proofs.Text.Trim
import CalendarRules.Proofs.Time.Shape
import CalendarRules.Proofs.Time.WallClock
import CalendarRules.Proofs.Query.Clock
import CalendarRules.Proofs.Rule.Report
import CalendarRules.Proofs.View.Report
import CalendarRules.Proofs.Json.Text
import CalendarRules.Proofs.Json.Number
import CalendarRules.Proofs.Json.Spelling
import CalendarRules.Proofs.Json.Page
import CalendarRules.Proofs.Query.Attendees
import CalendarRules.Proofs.Query.TimeTerms
import CalendarRules.Proofs.Query.Unknown
import CalendarRules.Proofs.Query.Places
import CalendarRules.Proofs.View.Check
import CalendarRules.Proofs.Query.Columns
import CalendarRules.Proofs.Text.Quotes
import CalendarRules.Proofs.Query.Respelling
import CalendarRules.Proofs.Query.Quotes
import CalendarRules.Proofs.Text.Lines
import CalendarRules.Proofs.Json.Line
import CalendarRules.Proofs.Event.Spelled
import CalendarRules.Proofs.Event.Feed
import CalendarRules.Proofs.Text.Distance
import CalendarRules.Proofs.Query.Suggestion
import CalendarRules.Proofs.Text.Quoted
import CalendarRules.Proofs.Text.Style
import CalendarRules.Proofs.View.Colours
import CalendarRules.Proofs.Json.Reading
import CalendarRules.Proofs.Event.Attendees
import CalendarRules.Proofs.Text.Bytes
import CalendarRules.Proofs.Query.TimeOfDay
