import CalendarRules.Toml.Quoted
import CalendarRules.Toml.Table
import CalendarRules.Toml.Time

/-! # Reading a document -/

namespace CalendarRules.Toml

/-- Keys have at most so many parts, and lists and tables nest at most so deep. -/
def maxDepth : Nat := 79

/-! ## Keys -/

/-- A character of a name without quotes. -/
def isBare (c : Char) : Bool := c.isAlphanum || c == '-' || c == '_'

def readName? (cs : List Char) : Option (String × List Char) :=
  match readQuoted? cs with
  | some (text, rest) => some (String.ofList text, rest)
  | none =>
    match cs.takeWhile isBare with
    | [] => none
    | name => some (String.ofList name, cs.dropWhile isBare)

/-- A key of at most `room` parts, and the blanks around it. -/
def readKey? : Nat → List Char → Option (Key × List Char)
  | 0, _ => none
  | room + 1, cs => do
    let (name, cs) ← readName? (skipBlanks cs)
    match skipBlanks cs with
    | '.' :: cs =>
      let (key, cs) ← readKey? room cs
      some ({ key with path := name :: key.path }, cs)
    | cs => some (.ofName name, cs)

/-! ## Values -/

/-- A reader of one value at the start of a text. -/
abbrev ValueReader := List Char → Option (Value × List Char)

/-- A number or a time, kept as it is written up to `rest`. -/
def literalOf (cs rest : List Char) : String := String.ofList (cs.take (cs.length - rest.length))

def readNumber? (cs : List Char) : Option (Value × List Char) :=
  match skipTime? cs with
  | some rest => some (.time (literalOf cs rest), rest)
  | none =>
    match skipReal? cs with
    | some rest => some (.real (literalOf cs rest), rest)
    | none => (readWhole? cs).map fun (n, rest) => (.whole n, rest)

/-- A value that holds no other values. -/
def readScalar? : ValueReader
  | 't' :: 'r' :: 'u' :: 'e' :: cs => some (.bool true, cs)
  | 'f' :: 'a' :: 'l' :: 's' :: 'e' :: cs => some (.bool false, cs)
  | cs =>
    match readText? cs with
    | some (text, rest) => some (.text (String.ofList text), rest)
    | none => readNumber? cs

/-- The items up to the closing bracket. There may be a comma after the last one. -/
def readItems? (one : ValueReader) : Nat → List Char → Option (List Value × List Char)
  | 0, _ => none
  | fuel + 1, cs => do
    match ← skipGaps? false cs with
    | ']' :: cs => some ([], cs)
    | cs =>
      let (v, cs) ← one cs
      match ← skipGaps? false cs with
      | ',' :: cs =>
        let (vs, cs) ← readItems? one fuel cs
        some (v :: vs, cs)
      | ']' :: cs => some ([v], cs)
      | _ => none

def readEntry? (one : ValueReader) (cs : List Char) : Option (Entry × List Char) := do
  match ← readKey? maxDepth cs with
  | (key, '=' :: cs) =>
    let (v, cs) ← one (skipBlanks cs)
    some (⟨key, v⟩, cs)
  | _ => none

/-- The entries of a table on one line, at least one, up to the closing brace. -/
def readEntries? (one : ValueReader) : Nat → List Char → Option (List Entry × List Char)
  | 0, _ => none
  | fuel + 1, cs => do
    let (e, cs) ← readEntry? one cs
    match skipBlanks cs with
    | ',' :: cs =>
      let (es, cs) ← readEntries? one fuel cs
      some (e :: es, cs)
    | '\x7d' :: cs => some ([e], cs)
    | _ => none

/-- A table on one line after its opening brace. -/
def readInline? (one : ValueReader) (cs : List Char) : Option (Value × List Char) :=
  match skipBlanks cs with
  | '\x7d' :: cs => some (.table [], cs)
  | cs => do
    let (es, rest) ← readEntries? one cs.length cs
    some (← tableOf? es, rest)

/-- A value in which lists and tables nest at most `room` deep. -/
def readValue? : Nat → ValueReader
  | 0, cs => readScalar? cs
  | room + 1, '[' :: cs => do
    let (vs, rest) ← readItems? (readValue? room) (cs.length + 1) cs
    some (.list vs, rest)
  | room + 1, '\x7b' :: cs => readInline? (readValue? room) cs
  | _ + 1, cs => readScalar? cs

/-! ## Lines -/

inductive Line where
  | blank
  | entry (e : Entry)
  | header (h : Header)
  deriving Repr

/-- A line without the blanks in front. -/
def readLine? : List Char → Option (Line × List Char)
  | '[' :: '[' :: cs => do
    match ← readKey? maxDepth cs with
    | (key, ']' :: ']' :: cs) => some (.header ⟨key, true⟩, ← readLineEnd? cs)
    | _ => none
  | '[' :: cs => do
    match ← readKey? maxDepth cs with
    | (key, ']' :: cs) => some (.header ⟨key, false⟩, ← readLineEnd? cs)
    | _ => none
  | cs =>
    match readLineEnd? cs with
    | some rest => some (.blank, rest)
    | none => do
      let (e, cs) ← readEntry? (readValue? maxDepth) cs
      some (.entry e, ← readLineEnd? cs)

/-- Every line takes a character, so one more than the length of the text is fuel enough. -/
def readLines? : Nat → List Char → Option (List Line)
  | 0, _ => none
  | fuel + 1, cs => do
    match skipBlanks cs with
    | [] => some []
    | cs =>
      let (line, rest) ← readLine? cs
      some (line :: (← readLines? fuel rest))

/-! ## Documents -/

namespace Document

/-- The entries before the first header, and the sections. -/
def ofLines : List Line → Document
  | [] => ⟨[], []⟩
  | .blank :: ls => ofLines ls
  | .entry e :: ls =>
    let d := ofLines ls
    { d with entries := e :: d.entries }
  | .header h :: ls =>
    let d := ofLines ls
    ⟨[], ⟨h, d.entries⟩ :: d.sections⟩

/-- A mark of the byte order in front is passed over. -/
def skipMark : List Char → List Char
  | '\ufeff' :: cs => cs
  | cs => cs

def ofChars? (cs : List Char) : Option Document :=
  let cs := skipMark cs
  (readLines? (cs.length + 1) cs).map ofLines

end Document

/-- The table that a text gives. -/
def Value.ofString? (s : String) : Option Value := (Document.ofChars? s.toList).bind (·.value?)

end CalendarRules.Toml
