import CalendarRules.Toml.Quoted
import CalendarRules.Toml.Read

/-! # Writing a document

A list of two items or more has each of them on a line of its own. A blank line goes before every
section.
-/

namespace CalendarRules.Toml

def writeName (name : String) : List Char :=
  let cs := name.toList
  if !cs.isEmpty && cs.all isBare then cs else Form.basic.write cs

def writeKey (key : Key) : List Char :=
  key.path.flatMap (fun p => writeName p ++ ['.']) ++ writeName key.name

/-! ## Values -/

def itemIndent : List Char := '\n' :: List.replicate 4 ' '

mutual

def Value.write : Value → List Char
  | .text s => writeText s.toList
  | .whole n => (toString n).toList
  | .real literal => literal.toList
  | .bool true => "true".toList
  | .bool false => "false".toList
  | .time literal => literal.toList
  | .list [] => ['[', ']']
  | .list [v] => '[' :: v.write ++ [']']
  | .list (v :: w :: vs) => '[' :: writeItems (v :: w :: vs) ++ ['\n', ']']
  | .table [] => ['\x7b', '\x7d']
  | .table (m :: ms) => '\x7b' :: ' ' :: writeMembers (m :: ms) ++ [' ', '\x7d']

def writeItems : List Value → List Char
  | [] => []
  | v :: vs => itemIndent ++ v.write ++ ',' :: writeItems vs

def writeMembers : List (String × Value) → List Char
  | [] => []
  | [(name, v)] => writeName name ++ " = ".toList ++ v.write
  | (name, v) :: ms => writeName name ++ " = ".toList ++ v.write ++ ',' :: ' ' :: writeMembers ms

end

/-- Whole numbers beyond 64 bits with a sign have no written form. -/
def Value.isWritable : Value → Bool
  | .whole n => fitsWhole n
  | _ => true

/-! ## Documents -/

def writeEntry (e : Entry) : List Char := writeKey e.key ++ " = ".toList ++ e.value.write ++ ['\n']

def writeHeader (h : Header) : List Char :=
  if h.isElement then "[[".toList ++ writeKey h.key ++ "]]\n".toList
  else '[' :: writeKey h.key ++ "]\n".toList

def writeSection (s : Section) : List Char := writeHeader s.header ++ s.entries.flatMap writeEntry

namespace Document

/-- Every part of the document that is not empty. -/
def parts (d : Document) : List (List Char) :=
  let sections := d.sections.map writeSection
  if d.entries.isEmpty then sections else d.entries.flatMap writeEntry :: sections

def isWritable (d : Document) : Bool :=
  let entries := d.entries ++ d.sections.flatMap (·.entries)
  entries.all (·.value.isWritable)

def write? (d : Document) : Option String :=
  if d.isWritable then some (String.ofList (['\n'].intercalate d.parts)) else none

end Document

end CalendarRules.Toml
