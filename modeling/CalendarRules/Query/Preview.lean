import CalendarRules.Query.Matches
import CalendarRules.Query.Parse
import CalendarRules.Query.Render

/-! # Previews: the events that a query would match -/

namespace CalendarRules

structure Preview where
  /-- The canonical text of the query. -/
  query : String
  /-- How many events match, whatever the limit. -/
  total : Nat
  /-- The first of them, up to the limit. -/
  shown : List Event
  deriving DecidableEq, Repr

namespace Preview

/-- One more event matches. It is shown if there is room for it. -/
def count (limit : Nat) (p : Preview) (e : Event) : Preview :=
  { p with
    total := p.total + 1
    shown := if p.shown.length < limit then p.shown ++ [e] else p.shown }

def ofQuery (q : Query) (events : List Event) (limit : Nat) : Preview :=
  (events.filter q.holds).foldl (count limit) ⟨q.toText, 0, []⟩

def ofText (query : String) (events : List Event) (limit : Nat) : Except Query.Error Preview := do
  .ok (ofQuery (← Query.parse query) events limit)

/-- The matches beyond the limit. -/
def hidden (p : Preview) : Nat := p.total - p.shown.length

end Preview

end CalendarRules
