import CalendarRules.Command.Run
import CalendarRules.Command.Usage

/-! # The program

What a command looks at is read before it runs, and what it changed is written after that.
-/

namespace CalendarRules.Program

/-! ## Files -/

def locationText (l : Location) : String :=
  (if l.isAbsolute then "/" else "") ++ String.intercalate "/" l.parts

def contentOf (data : ByteArray) : Content :=
  match String.fromUTF8? data with
  | some s => .text s
  | none => .bytes data.toList

/-- A file, a folder, or nothing that can be used. -/
def entryAt? (path : String) : IO (Option FileEntry) := do
  try
    let data ← IO.FS.readBinFile path
    pure (some (.file (contentOf data)))
  catch
    | .inappropriateType .. => pure (some .folder)
    | _ => pure none

/-- Adds what is found on a way through the folders. -/
def look (t : FileTree) (l : Location) : List String → IO FileTree
  | [] => pure t
  | part :: parts =>
    if part = "." then look t l parts
    else if part = ".." then look t l.up parts
    else do
      let next := l.child part
      match ← entryAt? (locationText next) with
      | some .folder => look (t.set next .folder) next parts
      | some entry => pure (t.set next entry)
      | none => pure t

def lookAll (paths : List String) : IO FileTree :=
  paths.foldlM (fun t path =>
    let p := Path.ofString path
    look t ⟨p.isAbsolute, []⟩ p.parts) {}

def storeEntry (l : Location) : FileEntry → IO Unit
  | .folder => IO.FS.createDirAll (locationText l)
  | .file (.text s) => IO.FS.writeFile (locationText l) s
  | .file (.bytes data) => IO.FS.writeBinFile (locationText l) (ByteArray.mk data.toArray)

/-- Writes every entry that is not as it was before. -/
def storeChanges (old new : FileTree) : IO Unit := do
  for (l, entry) in new.entries do
    unless old.get? l == some entry do storeEntry l entry

/-! ## The run -/

def environment : IO Environment := do
  pure {
    configPath := ← IO.getEnv "TSR_CONFIG"
    configHome := ← IO.getEnv "XDG_CONFIG_HOME"
    home := ← IO.getEnv "HOME"
    noColour := ← IO.getEnv "NO_COLOR" }

def readInput (i : Invocation) : IO Content := do
  if i.readsInput then
    let data ← (← IO.getStdin).readBinToEnd
    pure (contentOf data)
  else pure (.text "")

def runInvocation (env : Environment) (i : Invocation) : IO UInt32 := do
  let files ← lookAll (i.paths env)
  let input ← readInput i
  let e := Session.run ⟨env, files, input⟩ i
  storeChanges files e.files
  IO.print e.out
  IO.eprint e.notes
  match e.failure with
  | none => pure 0
  | some f =>
    IO.eprint (f.report i.preferences.json)
    pure (UInt32.ofNat f.exitStatus)

def showStop (stop : Stop) : IO UInt32 := do
  if stop.exitStatus = 0 then IO.print stop.message else IO.eprint stop.message
  pure (UInt32.ofNat stop.exitStatus)

end CalendarRules.Program

def main (arguments : List String) : IO UInt32 := do
  let env ← CalendarRules.Program.environment
  match CalendarRules.Invocation.parse env arguments with
  | .error stop => CalendarRules.Program.showStop stop
  | .ok i => CalendarRules.Program.runInvocation env i
