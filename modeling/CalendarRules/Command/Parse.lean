import CalendarRules.Command.Level
import CalendarRules.Config.Store

/-! # Understanding a command line

The arguments are taken from left to right. A value is looked at when the argument after it is, so
of two faults the one on the left is not always found first. A level is done with before the level
above it.
-/

namespace CalendarRules

/-! ## Values -/

/-- Why a text cannot be a value of the kind. -/
def ValueKind.fault? (kind : ValueKind) (s : String) : Option Stop :=
  match kind with
  | .text => none
  | .path => if s.isEmpty then some .invalidValue else none
  | .count => if (readCount? s).isSome then none else some .badNumber
  | .shell => if (Shell.ofName? s).isSome then none else some .invalidValue

/-- An argument that has a value or does not need one. -/
inductive Slot where
  | flag (f : Flag)
  | positional (p : Positional)
  deriving DecidableEq, Repr

def Slot.value? : Slot → Option ValueKind
  | flag f => f.value?
  | positional p => some p.valueKind

/-- The arguments of one level so far. -/
structure Given where
  /-- Those that are looked at, with their values. -/
  done : List (Slot × Option String) := []
  /-- The last one, if it is still to be looked at. -/
  pending : Option (Slot × Option String) := none
  /-- The number of positional arguments. -/
  placed : Nat := 0
  /-- After two hyphens no argument is a flag any more. -/
  onlyPlaced : Bool := false
  deriving DecidableEq, Repr

namespace Given

def has (g : Given) (f : Flag) : Bool := g.done.any (·.1 == .flag f)

def value? (g : Given) (slot : Slot) : Option String :=
  (g.done.find? (·.1 == slot)).bind (·.2)

/-! ## Steps -/

/-- Looks at an argument. No argument is given twice at one level. -/
def accept (g : Given) (slot : Slot) (value : Option String) : Except Stop Given :=
  let accepted : Given := { g with done := g.done ++ [(slot, value)] }
  let isRepeated := g.done.any (·.1 == slot)
  match slot.value?, value with
  | some _, none => .error .invalidValue
  | some kind, some s =>
    if isRepeated then .error .conflict
    else
      match kind.fault? s with
      | some stop => .error stop
      | none => .ok accepted
  | none, _ =>
    if slot = .flag .help then .error .help
    else if slot = .flag .version then .error .version
    else if isRepeated then .error .conflict
    else .ok accepted

/-- Looks at the argument that is pending. -/
def settle (g : Given) : Except Stop Given :=
  match g.pending with
  | none => .ok g
  | some (slot, value) => accept { g with pending := none } slot value

/-- Looks at an argument that is complete. -/
def add (g : Given) (slot : Slot) (value : Option String) : Except Stop Given := do
  (← g.settle).accept slot value

/-- Leaves an argument for later. -/
def leave (g : Given) (slot : Slot) (value : Option String) : Except Stop Given := do
  .ok { (← g.settle) with pending := some (slot, value) }

/-- The flag whose value has to come next. -/
def awaiting? (g : Given) : Option Flag :=
  match g.pending with
  | some (.flag f, none) => if g.onlyPlaced then none else some f
  | _ => none

end Given

namespace Level

/-- A flag with two hyphens. Its value may follow an equals sign. -/
def readLong (l : Level) (g : Given) (cs : List Char) : Except Stop Given :=
  let name := String.ofList (cs.takeWhile (· != '='))
  let attached :=
    match cs.dropWhile (· != '=') with
    | [] => none
    | _ :: value => some (String.ofList value)
  match l.longFlag? name, attached with
  | none, _ => .error .unknownArgument
  | some f, some s =>
    if f.value?.isSome then g.add (.flag f) (some s) else .error .unwantedValue
  | some f, none => if f.value?.isSome then g.leave (.flag f) none else g.add (.flag f) none

/-- Flags with one hyphen. The value of the last one may follow it at once. -/
def readShort (l : Level) (g : Given) : List Char → Except Stop Given
  | [] => .ok g
  | c :: cs =>
    match l.shortFlag? c with
    | none => .error .unknownArgument
    | some f =>
      if f.value?.isSome then
        match cs with
        | [] => g.leave (.flag f) none
        | '=' :: value => g.add (.flag f) (some (String.ofList value))
        | value => g.add (.flag f) (some (String.ofList value))
      else do l.readShort (← g.add (.flag f) none) cs

/-- An argument with no place for it. -/
def surplus (l : Level) (g : Given) (s : String) : Stop :=
  if g.onlyPlaced && (l.below? s).isSome then .unknownArgument
  else if l.below.isEmpty then .unknownArgument
  else .invalidSubcommand

def readPlaced (l : Level) (g : Given) (s : String) : Except Stop Given :=
  match l.positionals[g.placed]? with
  | some p => do
    let g ← g.leave (.positional p) (some s)
    .ok { g with placed := g.placed + 1 }
  | none => .error (l.surplus g s)

/-- One argument that names no level. -/
def readArgument (l : Level) (g : Given) (s : String) : Except Stop Given :=
  if g.onlyPlaced then l.readPlaced g s
  else
    match s.toList with
    | ['-', '-'] => .ok { g with onlyPlaced := true }
    | '-' :: '-' :: cs => l.readLong g cs
    | '-' :: c :: cs => l.readShort g (c :: cs)
    | _ =>
      match g.awaiting? with
      | some f => .ok { g with pending := some (.flag f, some s) }
      | none => l.readPlaced g s

/-! ## Levels -/

/-- A path from the environment counts as a value too, unless one is given. -/
def checkEnvironment (env : Environment) (g : Given) : Except Stop Unit :=
  match env.configPath with
  | some path => if path.isEmpty && !g.has .config then .error .invalidValue else .ok ()
  | none => .ok ()

/-- The arguments that a command cannot do without. -/
def needed : Level → List Slot
  | check => [.positional .query]
  | preview => [.positional .query, .flag .events]
  | apply => [.flag .events]
  | configSet => [.positional .key, .positional .value]
  | completions => [.positional .shell]
  | _ => []

/-- What holds of a level when all of its arguments are there. -/
def finish (env : Environment) (l : Level) (g : Given) : Except Stop Given := do
  let g ← g.settle
  checkEnvironment env g
  if g.has .quiet && g.has .verbose then .error .conflict
  else if l.needed.any (fun slot => (g.value? slot).isNone) then .error .missingArgument
  else .ok g

/-- The command that the arguments of a level give. -/
def command? (l : Level) (g : Given) : Option Command :=
  let text (p : Positional) := g.value? (.positional p)
  let value (f : Flag) := g.value? (.flag f)
  match l with
  | root | help => none
  | check => do some (.check (← text .query))
  | preview => do
    some (.preview (← text .query) (← value .events) ((value .limit).bind readCount?))
  | apply => do some (.apply (← value .events) (value .rules) (g.has .matchedOnly))
  | config | configShow => some (.config .show)
  | configInit => some (.config (.init (g.has .force)))
  | configSet => do some (.config (.set (← text .key) (← text .value)))
  | configPath => some (.config .path)
  | completions => do some (.completions (← (text .shell).bind Shell.ofName?))

/-- Help on the level that the arguments lead to. -/
def helpOn (l : Level) : List String → Stop
  | [] => .help
  | s :: rest =>
    match l.below? s with
    | some next => next.helpOn rest
    | none => .invalidSubcommand

end Level

namespace Given

def preferences (g : Given) : Preferences where
  verbose := g.has .verbose
  quiet := g.has .quiet
  json := g.has .json
  noColour := g.has .noColour
  configPath := g.value? (.flag .config)

end Given

/-- What is said at any level counts. Of two paths the one further in does. -/
def Preferences.join (outer inner : Preferences) : Preferences where
  verbose := outer.verbose || inner.verbose
  quiet := outer.quiet || inner.quiet
  json := outer.json || inner.json
  noColour := outer.noColour || inner.noColour
  configPath := inner.configPath <|> outer.configPath

namespace Invocation

/-- The rest of a command line at a level, some of whose arguments are read already. -/
def parseFrom (env : Environment) (l : Level) (g : Given) : List String → Except Stop Invocation
  | [] => do
    let g ← l.finish env g
    .ok ⟨g.preferences, l.command? g⟩
  | s :: rest =>
    match if g.onlyPlaced || g.awaiting?.isSome then none else l.below? s with
    | some .help => .error (l.helpOn rest)
    | some next => do
      let inner ← parseFrom env next {} rest
      let g ← l.finish env g
      .ok ⟨g.preferences.join inner.preferences, inner.command⟩
    | none => do parseFrom env l (← l.readArgument g s) rest

/-- What the arguments after the name of the program ask for. The environment may give the path
that no argument gives. -/
def parse (env : Environment) (arguments : List String) : Except Stop Invocation := do
  let i ← parseFrom env .root {} arguments
  .ok { i with preferences.configPath := i.preferences.configPath <|> env.configPath }

end Invocation

end CalendarRules
