import CalendarRules.Text.Lower

/-! # Queries: all of their items, where an item is a term or any of a group -/

namespace CalendarRules

/-- A condition `property:value`. The value is free of quotes and escapes. -/
structure Term where
  property : String
  value : String
  deriving DecidableEq, Repr

/-- A term with its property in lower case. -/
def Term.of (property value : String) : Term := ⟨Text.lower property, value⟩

inductive Node where
  | term (t : Term)
  | anyOf (members : List Node)
  deriving Repr

/-- All items have to hold. A query without items places no condition. -/
structure Query where
  items : List Node
  deriving Repr

namespace Node

mutual

def decEq : (a b : Node) → Decidable (a = b)
  | .term s, .term t =>
    if h : s = t then isTrue (by rw [h]) else isFalse (by simpa using h)
  | .anyOf ms, .anyOf ns =>
    match decEqMembers ms ns with
    | isTrue h => isTrue (by rw [h])
    | isFalse h => isFalse (by simpa using h)
  | .term _, .anyOf _ => isFalse (by simp)
  | .anyOf _, .term _ => isFalse (by simp)

def decEqMembers : (ms ns : List Node) → Decidable (ms = ns)
  | [], [] => isTrue rfl
  | m :: ms, n :: ns =>
    match decEq m n, decEqMembers ms ns with
    | isTrue h, isTrue hs => isTrue (by rw [h, hs])
    | isFalse h, _ => isFalse (by simp [h])
    | _, isFalse hs => isFalse (by simp [hs])
  | [], _ :: _ => isFalse (by simp)
  | _ :: _, [] => isFalse (by simp)

end

instance : DecidableEq Node := decEq

mutual

/-- The terms from left to right. -/
def terms : Node → List Term
  | .term t => [t]
  | .anyOf ms => membersTerms ms

def membersTerms : List Node → List Term
  | [] => []
  | m :: ms => m.terms ++ membersTerms ms

end

theorem mem_membersTerms {t : Term} {ms : List Node} :
    t ∈ membersTerms ms ↔ ∃ m ∈ ms, t ∈ m.terms := by
  induction ms with
  | nil => simp [membersTerms]
  | cons m ms ih => simp [membersTerms, ih]

end Node

deriving instance DecidableEq for Query

namespace Query

def isEmpty (q : Query) : Bool := q.items.isEmpty

def terms (q : Query) : List Term := Node.membersTerms q.items

end Query

end CalendarRules
