import CalendarRules.Files.Path

/-! # Files and folders

A tree keeps what is known of the files and folders, seen from the working directory. The working
directory, the folders above it and the root are always there.
-/

namespace CalendarRules

/-- What a file holds: text, or bytes that are no text. -/
inductive Content where
  | text (s : String)
  | bytes (data : List UInt8)
  deriving DecidableEq, Repr

/-- Why a file cannot be used. -/
inductive FileFault where
  | missing
  | taken
  | notFolder
  | isFolder
  | tooLong
  | notNameable
  | notText
  deriving DecidableEq, Repr

def FileFault.message : FileFault → String
  | missing => "No such file or directory (os error 2)"
  | taken => "File exists (os error 17)"
  | notFolder => "Not a directory (os error 20)"
  | isFolder => "Is a directory (os error 21)"
  | tooLong => "File name too long (os error 36)"
  | notNameable => "file name contained an unexpected NUL byte"
  | notText => "stream did not contain valid UTF-8"

def Content.text? : Content → Except FileFault String
  | text s => .ok s
  | bytes _ => .error .notText

/-- A place in the tree, from the root or from the working directory. Only the first parts of a
place may lead upwards. -/
structure Location where
  isAbsolute : Bool
  parts : List String
  deriving DecidableEq, Repr

inductive FileEntry where
  | file (content : Content)
  | folder
  deriving DecidableEq, Repr

structure FileTree where
  entries : List (Location × FileEntry) := []
  deriving DecidableEq, Repr

namespace Location

def child (l : Location) (name : String) : Location := { l with parts := l.parts ++ [name] }

/-- The place that `..` leads to. The root is its own parent. -/
def up (l : Location) : Location :=
  if l.parts.all (· == "..") then
    if l.isAbsolute then l else l.child ".."
  else { l with parts := l.parts.dropLast }

/-- The place is there in every tree. -/
def isGiven (l : Location) : Bool := l.parts.all (· == "..")

end Location

/-- What is at the end of a path. -/
inductive Spot where
  | file (l : Location) (content : Content)
  | folder (l : Location)
  /-- Nothing, in a folder that is there. -/
  | free (l : Location)
  deriving DecidableEq, Repr

namespace FileTree

def get? (t : FileTree) (l : Location) : Option FileEntry :=
  if l.isGiven then some .folder else (t.entries.find? (·.1 == l)).map (·.2)

def set (t : FileTree) (l : Location) (e : FileEntry) : FileTree :=
  ⟨t.entries.filter (·.1 != l) ++ [(l, e)]⟩

/-! ## Paths -/

/-- The largest path, in bytes. -/
def maxPathSize : Nat := 4095

/-- The largest name of a file or folder, in bytes. -/
def maxNameSize : Nat := 255

/-- What is wrong with a path wherever it leads. -/
def checkPath (p : Path) : Except FileFault Unit :=
  if !p.isNameable then .error .notNameable
  else if maxPathSize < p.size then .error .tooLong
  else .ok ()

def spotAt (t : FileTree) (l : Location) : Spot :=
  match t.get? l with
  | some (.file content) => .file l content
  | some .folder => .folder l
  | none => .free l

/-- One part further on the way. -/
def follow (t : FileTree) (spot : Spot) (part : String) : Except FileFault Spot :=
  match spot with
  | .file .. => .error .notFolder
  | .free _ => .error .missing
  | .folder l =>
    if part = "." then .ok (.folder l)
    else if part = ".." then .ok (.folder l.up)
    else if maxNameSize < part.utf8ByteSize then .error .tooLong
    else .ok (t.spotAt (l.child part))

def followAll (t : FileTree) (isAbsolute : Bool) (parts : List String) : Except FileFault Spot :=
  parts.foldlM t.follow (.folder ⟨isAbsolute, []⟩)

def resolve (t : FileTree) (p : Path) : Except FileFault Spot := do
  checkPath p
  t.followAll p.isAbsolute p.parts

/-! ## Reading -/

/-- A slash at the end asks for a folder. The empty path leads nowhere. -/
def read (t : FileTree) (p : Path) : Except FileFault Content := do
  if p.isEmpty then .error .missing
  else
    match ← t.resolve p with
    | .file _ content => if p.endsInSlash then .error .notFolder else .ok content
    | .folder _ => .error .isFolder
    | .free _ => .error .missing

def readText (t : FileTree) (p : Path) : Except FileFault String := do (← t.read p).text?

/-- Something is there, a file or a folder. -/
def has (t : FileTree) (p : Path) : Bool :=
  match t.read p with
  | .ok _ | .error .isFolder => true
  | .error _ => false

/-! ## Writing -/

def makeFolder (t : FileTree) (p : Path) : Except FileFault FileTree := do
  match ← t.resolve p with
  | .free l => .ok (t.set l .folder)
  | _ => .error .taken

def hasFolder (t : FileTree) (p : Path) : Bool :=
  match t.resolve p with
  | .ok (.folder _) => true
  | _ => false

/-- Makes the folder unless it is there. -/
def ensureFolder (t : FileTree) (p : Path) : FileTree × Option FileFault :=
  if t.hasFolder p then (t, none)
  else
    match t.makeFolder p with
    | .ok t => (t, none)
    | .error fault => (t, some fault)

/-- Makes the folder whose pieces are given in reverse, and before it the folders on the way. The
folders that were made stay when a later one cannot be. -/
def makeFoldersTo (t : FileTree) (isAbsolute : Bool) :
    List String → FileTree × Option FileFault
  | [] => (t, none)
  | piece :: pieces =>
    let p : Path := ⟨isAbsolute, (piece :: pieces).reverse⟩
    match t.ensureFolder p with
    | (_, some .missing) =>
      match t.makeFoldersTo isAbsolute pieces with
      | (t, none) => t.ensureFolder p
      | failed => failed
    | result => result

def makeFolders (t : FileTree) (p : Path) : FileTree × Option FileFault :=
  t.makeFoldersTo p.isAbsolute p.pieces.reverse

/-- Makes the folder that a path names a place in. -/
def makeParent (t : FileTree) (p : Path) : FileTree × Option FileFault :=
  match p.parent? with
  | some folder => t.makeFolders folder
  | none => (t, none)

/-- A slash at the end makes any place a folder, and nothing is looked for under its name. -/
def writeText (t : FileTree) (p : Path) (s : String) : Except FileFault FileTree := do
  if p.isEmpty then .error .missing
  else
    checkPath p
    let parts := if p.endsInSlash then p.parts.dropLast ++ ["."] else p.parts
    match ← t.followAll p.isAbsolute parts with
    | .folder _ => .error .isFolder
    | .file l _ | .free l => .ok (t.set l (.file (.text s)))

end FileTree

end CalendarRules
