/-! # Paths as they are typed -/

namespace CalendarRules

/-- Where a path starts, and the pieces between its slashes, empty ones included. -/
structure Path where
  isAbsolute : Bool
  pieces : List String
  deriving DecidableEq, Repr

namespace Path

/-- The pieces between the slashes. -/
def split : List Char → List (List Char)
  | [] => [[]]
  | c :: cs =>
    match split cs with
    | [] => [[c]]
    | p :: ps => if c = '/' then [] :: p :: ps else (c :: p) :: ps

/-- A slash in front stands for the root and is before the first piece. -/
def ofString (s : String) : Path :=
  match s.toList with
  | '/' :: cs => ⟨true, (split cs).map String.ofList⟩
  | cs => ⟨false, (split cs).map String.ofList⟩

/-- The names on the way. -/
def parts (p : Path) : List String := p.pieces.filter (!·.isEmpty)

def isEmpty (p : Path) : Bool := !p.isAbsolute && p.parts.isEmpty

def endsInSlash (p : Path) : Bool := !p.parts.isEmpty && p.pieces.getLast? == some ""

/-- The length in bytes, with a slash between any two pieces. -/
def size (p : Path) : Nat :=
  p.pieces.foldl (fun n piece => n + piece.utf8ByteSize)
    ((if p.isAbsolute then 1 else 0) + (p.pieces.length - 1))

/-- A path with the character of number zero in it names nothing. -/
def isNameable (p : Path) : Bool := p.pieces.all fun piece => !piece.toList.contains '\x00'

/-- The parts without those that stay in one place, except for one in front. -/
def properParts (p : Path) : List String :=
  match p.parts with
  | [] => []
  | first :: rest =>
    let rest := rest.filter (· != ".")
    if first = "." && p.isAbsolute then rest else first :: rest

/-- The pieces up to the last one that leads anywhere. A dot does so only in front. -/
def properPieces (isAbsolute : Bool) : List String → List String
  | [] => []
  | first :: rest =>
    let rest := (rest.reverse.dropWhile fun piece => piece.isEmpty || piece = ".").reverse
    if rest.isEmpty && (first.isEmpty || first = "." && isAbsolute) then [] else first :: rest

/-- The folder that the path names a place in. Nothing is above the first folder. -/
def parent? (p : Path) : Option Path :=
  match properPieces p.isAbsolute p.pieces with
  | [] => none
  | pieces => some ⟨p.isAbsolute, properPieces p.isAbsolute pieces.dropLast⟩

/-- A hyphen stands for the standard input. -/
def isStandardInput (p : Path) : Bool := !p.isAbsolute && p.properParts == ["-"]

/-- The text of a path below a folder. -/
def join (folder name : String) : String :=
  if folder.endsWith "/" then folder ++ name else folder ++ "/" ++ name

end Path

end CalendarRules
