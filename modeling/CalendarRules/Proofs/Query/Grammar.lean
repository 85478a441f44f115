import CalendarRules.Query.Basic

/-!
# The grammar of queries

No reader here. A relation says what a text starts with, what that stands for and which text is
left after it, so that a word can ask for what follows it.
-/

namespace CalendarRules.Query.Grammar

/-! ## Characters -/

/-- Any number of these may stand between two words, also none. -/
def Separator (c : Char) : Prop := c = ' ' ∨ c = '\t' ∨ c = '\n' ∨ c = '\r'

def LowerLetter (c : Char) : Prop := 'a' ≤ c ∧ c ≤ 'z'

def Letter (c : Char) : Prop := LowerLetter c ∨ ('A' ≤ c ∧ c ≤ 'Z')

def Digit (c : Char) : Prop := '0' ≤ c ∧ c ≤ '9'

/-- A value without quotes is made of these. -/
def BareChar (c : Char) : Prop := ¬ Separator c ∧ c ≠ '(' ∧ c ≠ ')'

instance : DecidablePred Separator := fun c =>
  inferInstanceAs (Decidable (c = ' ' ∨ c = '\t' ∨ c = '\n' ∨ c = '\r'))

instance : DecidablePred LowerLetter := fun c => inferInstanceAs (Decidable ('a' ≤ c ∧ c ≤ 'z'))

instance : DecidablePred Letter := fun c =>
  inferInstanceAs (Decidable (LowerLetter c ∨ ('A' ≤ c ∧ c ≤ 'Z')))

instance : DecidablePred Digit := fun c => inferInstanceAs (Decidable ('0' ≤ c ∧ c ≤ '9'))

/-! ## Words -/

/-- A letter, and after it letters, digits and hyphens. -/
def Name (letter : Char → Prop) : List Char → Prop
  | [] => False
  | c :: cs => letter c ∧ ∀ d ∈ cs, letter d ∨ Digit d ∨ d = '-'

instance (letter : Char → Prop) [DecidablePred letter] : DecidablePred (Name letter)
  | [] => inferInstanceAs (Decidable False)
  | c :: cs => inferInstanceAs (Decidable (letter c ∧ ∀ d ∈ cs, letter d ∨ Digit d ∨ d = '-'))

/-- A quoted value after its opening quote. A backslash is dropped and keeps the next character. -/
inductive Quoted : List Char → List Char → List Char → Prop
  | close (rest : List Char) : Quoted ('"' :: rest) [] rest
  | escape (c : Char) {cs value rest : List Char} (h : Quoted cs value rest) :
    Quoted ('\\' :: c :: cs) (c :: value) rest
  | plain {c : Char} {cs value rest : List Char} (hq : c ≠ '"') (hb : c ≠ '\\')
    (h : Quoted cs value rest) : Quoted (c :: cs) (c :: value) rest

/-- A value without quotes goes on as long as it can, and does not start with a quote. -/
inductive Value : List Char → List Char → List Char → Prop
  | quoted {cs value rest : List Char} (h : Quoted cs value rest) : Value ('"' :: cs) value rest
  | bare {value rest : List Char} (hne : value ≠ []) (hstart : value.head? ≠ some '"')
    (hbare : ∀ c ∈ value, BareChar c) (hend : ∀ c ∈ rest.head?, ¬ BareChar c) :
    Value (value ++ rest) value rest

/-- The colon ends the name, so the name is as long as it can be. -/
inductive TermText : List Char → Term → List Char → Prop
  | intro {name cs value rest : List Char} (hname : Name Letter name)
    (hvalue : Value cs value rest) :
    TermText (name ++ ':' :: cs)
      ⟨String.ofList (name.map Char.toLower), String.ofList value⟩ rest

/-- The keyword in any letter case. A separator, a closing parenthesis or the end follows it. -/
inductive Keyword : List Char → List Char → Prop
  | intro {o r : Char} {rest : List Char} (ho : o = 'o' ∨ o = 'O') (hr : r = 'r' ∨ r = 'R')
    (hend : ∀ c ∈ rest.head?, Separator c ∨ c = ')') : Keyword (o :: r :: rest) rest

/-! ## Items -/

/-- A row of terms and groups. Inside a group the keyword may stand among them and adds nothing. -/
inductive Items : (inGroup : Bool) → List Char → List Node → List Char → Prop
  | stop (inGroup : Bool) (rest : List Char) : Items inGroup rest [] rest
  | separator {inGroup : Bool} {c : Char} {cs rest : List Char} {ns : List Node}
    (hc : Separator c) (h : Items inGroup cs ns rest) : Items inGroup (c :: cs) ns rest
  | term {inGroup : Bool} {cs after rest : List Char} {t : Term} {ns : List Node}
    (ht : TermText cs t after) (h : Items inGroup after ns rest) :
    Items inGroup cs (.term t :: ns) rest
  | group {inGroup : Bool} {cs after rest : List Char} {ms ns : List Node}
    (hms : Items true cs ms (')' :: after)) (h : Items inGroup after ns rest) :
    Items inGroup ('(' :: cs) (.anyOf ms :: ns) rest
  | keyword {cs after rest : List Char} {ns : List Node}
    (hk : Keyword cs after) (h : Items true after ns rest) : Items true cs ns rest

/-- The whole text is a row of items of the query. -/
def Derives (cs : List Char) (q : Query) : Prop := Items false cs q.items []

end CalendarRules.Query.Grammar
