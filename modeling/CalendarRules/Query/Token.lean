import CalendarRules.Query.Basic
import CalendarRules.Query.Fault
import CalendarRules.Text.Blank

/-! # The words of a query text

A whole term is one word. Reading takes the longest name and the longest value, and gives back the
rest of the text, which is always shorter.
-/

namespace CalendarRules.Query

open Text

inductive Token where
  | term (t : Term)
  | openParen
  | closeParen
  | or
  deriving DecidableEq, Repr

/-- What is left of the text. -/
abbrev Rest := List Char

/-! ## Character classes -/

/-- A name starts with an ASCII letter and goes on with these. -/
def isNameChar (c : Char) : Bool := c.isAlphanum || c == '-'

/-- A value without quotes is made of these. -/
def isBareChar (c : Char) : Bool := !(isSeparator c || c == '(' || c == ')')

def skipSeparators (cs : Rest) : Rest := cs.dropWhile isSeparator

/-! ## Words -/

/-- Here the keyword ends, and does not go on as a name. -/
def endsKeyword : Rest → Bool
  | [] => true
  | c :: _ => isSeparator c || c == ')'

/-- The keyword in any letter case, standing alone. -/
def readOr? : Rest → Option Rest
  | o :: r :: cs => if o.toLower = 'o' && r.toLower = 'r' && endsKeyword cs then some cs else none
  | _ => none

/-- A value up to its closing quote. A backslash keeps the next character as it is. -/
def readQuoted? : Rest → Option (List Char × Rest)
  | [] => none
  | '"' :: cs => some ([], cs)
  | '\\' :: c :: cs => (readQuoted? cs).map fun (value, rest) => (c :: value, rest)
  | c :: cs => (readQuoted? cs).map fun (value, rest) => (c :: value, rest)

def readValue (cs : Rest) : Except (Fault Rest) (List Char × Rest) :=
  match cs with
  | '"' :: rest =>
    match readQuoted? rest with
    | some found => .ok found
    | none => .error (.unclosedQuote cs)
  | _ =>
    match cs.takeWhile isBareChar with
    | [] => .error (.expectedValue cs)
    | value => .ok (value, cs.dropWhile isBareChar)

/-- A term at the start of the text, whose first character is `c`. -/
def readTerm (c : Char) (cs : Rest) : Except (Fault Rest) (Term × Rest) :=
  if c.isAlpha then
    let name := c :: cs.takeWhile isNameChar
    let property := String.ofList (name.map Char.toLower)
    match cs.dropWhile isNameChar with
    | ':' :: rest => do
      let (value, rest) ← readValue rest
      .ok (⟨property, String.ofList value⟩, rest)
    | rest => .error (.expectedColon property rest)
  else .error (.expectedProperty c (c :: cs))

/-- A word, its place and what follows it. -/
structure Word where
  token : Token
  place : Rest
  rest : Rest
  deriving DecidableEq, Repr

/-- The first word, or none when only separators are left. -/
def readWord (cs : Rest) : Except (Fault Rest) (Option Word) :=
  match skipSeparators cs with
  | [] => .ok none
  | c :: rest =>
    if c = '(' then .ok (some ⟨.openParen, c :: rest, rest⟩)
    else if c = ')' then .ok (some ⟨.closeParen, c :: rest, rest⟩)
    else
      match readOr? (c :: rest) with
      | some after => .ok (some ⟨.or, c :: rest, after⟩)
      | none => do
        let (t, after) ← readTerm c rest
        .ok (some ⟨.term t, c :: rest, after⟩)

/-! ## The rest is shorter -/

theorem readOr?_shorter {cs rest : Rest} (h : readOr? cs = some rest) :
    rest.length < cs.length := by
  unfold readOr? at h
  split at h
  · split at h
    · cases h; simp only [List.length_cons]; omega
    · cases h
  · cases h

theorem readQuoted?_shorter {cs : Rest} {value : List Char} {rest : Rest}
    (h : readQuoted? cs = some (value, rest)) : rest.length < cs.length := by
  fun_induction readQuoted? cs generalizing value rest with
  | case1 => cases h
  | case2 cs => cases h; simp
  | case3 c cs ih =>
    obtain ⟨⟨v, r⟩, hr, he⟩ := Option.map_eq_some_iff.1 h
    cases he
    have := ih hr
    simp; omega
  | case4 c cs _ _ ih =>
    obtain ⟨⟨v, r⟩, hr, he⟩ := Option.map_eq_some_iff.1 h
    cases he
    have := ih hr
    simp; omega

theorem readValue_le {cs : Rest} {value : List Char} {rest : Rest}
    (h : readValue cs = .ok (value, rest)) : rest.length ≤ cs.length := by
  unfold readValue at h
  split at h
  · split at h
    · rename_i hq
      cases h
      have := readQuoted?_shorter hq
      simp; omega
    · cases h
  · split at h
    · cases h
    · cases h; exact (List.dropWhile_suffix _).length_le

theorem readTerm_le {c : Char} {cs : Rest} {t : Term} {rest : Rest}
    (h : readTerm c cs = .ok (t, rest)) : rest.length ≤ cs.length := by
  unfold readTerm at h
  split at h
  · simp only at h
    split at h
    · rename_i after hd
      have hle := (List.dropWhile_suffix (l := cs) isNameChar).length_le
      rw [hd] at hle
      cases hv : readValue after with
      | error f => rw [hv] at h; cases h
      | ok found =>
        rw [hv] at h
        cases h
        have := readValue_le hv
        simp at hle; omega
    · cases h
  · cases h

theorem readWord_shorter {cs : Rest} {w : Word} (h : readWord cs = .ok (some w)) :
    w.rest.length < cs.length := by
  have hle := (List.dropWhile_suffix (l := cs) isSeparator).length_le
  unfold readWord skipSeparators at h
  split at h
  · cases h
  · rename_i c rest hs
    rw [hs] at hle
    simp only [List.length_cons] at hle
    split at h
    · cases h; simp only; omega
    · split at h
      · cases h; simp only; omega
      · split at h
        · rename_i ho
          cases h
          have := readOr?_shorter ho
          simp only [List.length_cons] at this ⊢; omega
        · cases ht : readTerm c rest with
          | error f => rw [ht] at h; cases h
          | ok found =>
            rw [ht] at h
            cases h
            have := readTerm_le ht
            simp only; omega

end CalendarRules.Query
