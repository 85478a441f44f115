import CalendarRules.Command.Run
import CalendarRules.Proofs.Files.Tree

/-!
# Runs that are asked to be quiet

A level of a command line is not told to be quiet and verbose at once, but one level may be told to
be quiet and another one to be verbose. A quiet run prints nothing, and makes a remark only when it
is verbose too.
-/

namespace CalendarRules

/-! ## What is said at each level -/

/-- The level that an argument names, if it is no value of a flag and not after two hyphens. -/
def Level.named? (l : Level) (g : Given) (s : String) : Option Level :=
  if g.onlyPlaced || g.awaiting?.isSome then none else l.below? s

/-- From a level with some arguments on, the rest of a command line leads through levels that are
given these arguments. -/
inductive Levels (env : Environment) : Level → Given → List String → List Given → Prop
  | last {l : Level} {g g' : Given} (hend : l.finish env g = .ok g') : Levels env l g [] [g']
  | argument {l : Level} {g g' : Given} {s : String} {rest : List String} {gs : List Given}
    (hname : l.named? g s = none) (hread : l.readArgument g s = .ok g')
    (h : Levels env l g' rest gs) : Levels env l g (s :: rest) gs
  | deeper {l next : Level} {g g' : Given} {s : String} {rest : List String} {gs : List Given}
    (hname : l.named? g s = some next) (hhelp : next ≠ .help) (h : Levels env next {} rest gs)
    (hend : l.finish env g = .ok g') : Levels env l g (s :: rest) (g' :: gs)

/-- What is said at any of the levels, the first one first. -/
def Preferences.ofLevels (gs : List Given) : Preferences :=
  gs.foldr (fun g inner => g.preferences.join inner) {}

theorem Preferences.join_default (p : Preferences) : p.join {} = p := by
  obtain ⟨verbose, quiet, json, noColour, configPath⟩ := p
  simp [join]

theorem Preferences.flags_ofLevels (gs : List Given) :
    (ofLevels gs).verbose = gs.any (·.has .verbose) ∧
      (ofLevels gs).quiet = gs.any (·.has .quiet) := by
  induction gs with
  | nil => exact ⟨rfl, rfl⟩
  | cons g gs ih =>
    rw [List.any_cons, List.any_cons, ← ih.1, ← ih.2]
    exact ⟨rfl, rfl⟩

theorem Level.not_both_of_finish {env : Environment} {l : Level} {g g' : Given}
    (h : l.finish env g = .ok g') : ¬ (g'.has .quiet = true ∧ g'.has .verbose = true) := by
  obtain ⟨settled, -, h⟩ := bind_eq_ok h
  obtain ⟨-, -, h⟩ := bind_eq_ok h
  split at h
  · cases h
  · rename_i hboth
    split at h
    · cases h
    · cases h
      simpa using hboth

theorem Levels.not_both {env : Environment} {l : Level} {g : Given} {args : List String}
    {gs : List Given} (h : Levels env l g args gs) :
    ∀ said ∈ gs, ¬ (said.has .quiet = true ∧ said.has .verbose = true) := by
  induction h with
  | last hend => simpa using Level.not_both_of_finish hend
  | argument hname hread h ih => exact ih
  | deeper hname hhelp h hend ih =>
    exact List.forall_mem_cons.mpr ⟨Level.not_both_of_finish hend, ih⟩

namespace Invocation

theorem levels_of_parseFrom {env : Environment} {l : Level} {g : Given} {args : List String}
    {i : Invocation} (h : parseFrom env l g args = .ok i) :
    ∃ gs, Levels env l g args gs ∧ i.preferences = Preferences.ofLevels gs := by
  -- The level changes on the way, and what it was given so far does with every argument.
  induction args generalizing l g i with
  | nil =>
    obtain ⟨g', hend, h⟩ := bind_eq_ok h
    cases h
    exact ⟨[g'], .last hend, (Preferences.join_default _).symm⟩
  | cons s rest ih =>
    rw [parseFrom] at h
    split at h
    · cases h
    · rename_i next hhelp hname
      obtain ⟨inner, hinner, h⟩ := bind_eq_ok h
      obtain ⟨g', hend, h⟩ := bind_eq_ok h
      cases h
      obtain ⟨gs, hgs, hpreferences⟩ := ih hinner
      exact ⟨g' :: gs, .deeper hname hhelp hgs hend, by rw [hpreferences]; rfl⟩
    · rename_i hname
      obtain ⟨g', hread, h⟩ := bind_eq_ok h
      obtain ⟨gs, hgs, hpreferences⟩ := ih h
      exact ⟨gs, .argument hname hread hgs, hpreferences⟩

theorem levels_of_parse {env : Environment} {args : List String} {i : Invocation}
    (h : parse env args = .ok i) :
    ∃ gs, Levels env .root {} args gs ∧ i.preferences.verbose = gs.any (·.has .verbose) ∧
      i.preferences.quiet = gs.any (·.has .quiet) := by
  obtain ⟨i', hi', h⟩ := bind_eq_ok h
  cases h
  obtain ⟨gs, hgs, hpreferences⟩ := levels_of_parseFrom hi'
  obtain ⟨hverbose, hquiet⟩ := Preferences.flags_ofLevels gs
  rw [← hpreferences] at hverbose hquiet
  exact ⟨gs, hgs, hverbose, hquiet⟩

end Invocation

/-! ## What is printed -/

/-- The command answers with a table or a page on a query or on events. -/
def Command.answers : Command → Bool
  | .check _ | .preview .. | .apply .. => true
  | .config _ | .completions _ => false

/-- The command is quiet, and there is no page to print. -/
def Manner.IsSilent (m : Manner) : Prop := m.quiet = true ∧ m.json = false

theorem Manner.output_of_isSilent {m : Manner} (h : m.IsSilent) (json : Json.Value)
    (text : String) : m.output json text = "" := by
  obtain ⟨hquiet, hjson⟩ := h
  simp [output, hquiet, hjson]

theorem line_ne_empty (s : String) : line s ≠ "" := by
  intro h
  have hlength := congrArg String.length h
  simp [line] at hlength

theorem remark_eq_empty_iff (verbose : Bool) (s : String) :
    (if verbose then line s else "") = "" ↔ verbose = false := by
  cases verbose <;> simp [line_ne_empty]

namespace Session

variable {s : Session} {m : Manner} {e : Ending}

theorem silent_check {query : String} (hm : m.IsSilent) (h : s.check m query = .ok e) :
    e.out = "" ∧ e.notes = "" := by
  obtain ⟨q, -, h⟩ := bind_eq_ok h
  cases h
  exact ⟨Manner.output_of_isSilent hm _ _, rfl⟩

theorem silent_preview {query events : String} {limit : Nat} (hm : m.IsSilent)
    (h : s.preview m query events limit = .ok e) :
    e.out = "" ∧ (e.notes = "" ↔ m.verbose = false) := by
  obtain ⟨es, -, h⟩ := bind_eq_ok h
  obtain ⟨p, -, h⟩ := bind_eq_ok h
  cases h
  exact ⟨Manner.output_of_isSilent hm _ _, remark_eq_empty_iff _ _⟩

theorem silent_applyBook {book : RuleBook} {events : String} {matchedOnly : Bool}
    (hm : m.IsSilent) (h : (s.applyBook m book events matchedOnly).failure = none) :
    (s.applyBook m book events matchedOnly).out = "" ∧
      ((s.applyBook m book events matchedOnly).notes = "" ↔ m.verbose = false) := by
  unfold applyBook at h ⊢
  cases hevents : s.readEvents events with
  | error f =>
    rw [hevents] at h
    cases h
  | ok es =>
    simp only [hm.1, Bool.not_true, Bool.and_false, Bool.false_eq_true, if_false,
      String.empty_append]
    exact ⟨Manner.output_of_isSilent hm _ _, remark_eq_empty_iff _ _⟩

theorem silent_apply {c : Config} {events : String} {rules : Option String} {matchedOnly : Bool}
    (hm : m.IsSilent) (h : s.apply m c events rules matchedOnly = .ok e)
    (hfailure : e.failure = none) : e.out = "" ∧ (e.notes = "" ↔ m.verbose = false) := by
  cases rules with
  | none =>
    cases h
    exact silent_applyBook hm hfailure
  | some path =>
    obtain ⟨book, -, h⟩ := bind_eq_ok h
    cases h
    exact silent_applyBook hm hfailure

theorem silent_run {i : Invocation} {command : Command} (hcommand : i.command = some command)
    (hanswers : command.answers = true) (hquiet : i.preferences.quiet = true)
    (hjson : i.preferences.json = false) (hfailure : (s.run i).failure = none) :
    (s.run i).out = "" ∧
      ((s.run i).notes = "" ↔ i.preferences.verbose = false ∨ command.eventsPath? = none) := by
  have hm (c : Config) : (Manner.of s.env i.preferences c).IsSilent := ⟨hquiet, hjson⟩
  have hrun : s.run i = s.ending (s.runCommand i.preferences command) := by
    unfold run
    rw [hcommand]
  rw [hrun] at hfailure ⊢
  cases hresult : s.runCommand i.preferences command with
  | error f =>
    rw [hresult] at hfailure
    cases hfailure
  | ok e =>
    rw [hresult] at hfailure
    cases command with
    | check query =>
      obtain ⟨c, -, h⟩ := bind_eq_ok hresult
      obtain ⟨hout, hnotes⟩ := silent_check (hm c) h
      exact ⟨hout, iff_of_true hnotes (.inr rfl)⟩
    | preview query events limit =>
      obtain ⟨c, -, h⟩ := bind_eq_ok hresult
      obtain ⟨hout, hnotes⟩ := silent_preview (hm c) h
      refine ⟨hout, hnotes.trans ?_⟩
      simp [Manner.of, Command.eventsPath?]
    | apply events rules matchedOnly =>
      obtain ⟨c, -, h⟩ := bind_eq_ok hresult
      obtain ⟨hout, hnotes⟩ := silent_apply (hm c) h hfailure
      refine ⟨hout, hnotes.trans ?_⟩
      simp [Manner.of, Command.eventsPath?]
    | config | completions => cases hanswers

end Session

/-! ## The theorem -/

/-- No level is told to be quiet and verbose at once, and what is said at any level counts. A run
that is told to be quiet prints nothing, and makes no remark either unless another level says
verbose. -/
theorem quiet_run_prints_nothing {env : Environment} {args : List String} {i : Invocation}
    (h : Invocation.parse env args = .ok i) :
    (∃ gs, Levels env .root {} args gs ∧
        (i.preferences.verbose = true ↔ ∃ g ∈ gs, g.has .verbose = true) ∧
        (i.preferences.quiet = true ↔ ∃ g ∈ gs, g.has .quiet = true) ∧
        ∀ g ∈ gs, ¬ (g.has .quiet = true ∧ g.has .verbose = true)) ∧
      ∀ (s : Session) (command : Command), i.command = some command → command.answers = true →
        i.preferences.quiet = true → i.preferences.json = false → (s.run i).failure = none →
        (s.run i).out = "" ∧
          ((s.run i).notes = "" ↔
            i.preferences.verbose = false ∨ command.eventsPath? = none) := by
  obtain ⟨gs, hgs, hverbose, hquiet⟩ := Invocation.levels_of_parse h
  refine ⟨⟨gs, hgs, ?_, ?_, hgs.not_both⟩, ?_⟩
  · rw [hverbose, List.any_eq_true]
  · rw [hquiet, List.any_eq_true]
  · intro s command hcommand hanswers hquiet hjson hfailure
    exact Session.silent_run hcommand hanswers hquiet hjson hfailure

/-- A quiet preview that ends well, of a file without events. -/
theorem quiet_run_prints_nothing_preview :
    let i : Invocation :=
      ⟨{ quiet := true, configPath := some "c" }, some (.preview "a:b" "f" none)⟩
    let s : Session := ⟨{}, ⟨[(⟨false, ["f"]⟩, .file (.text "[]"))]⟩, .text ""⟩
    Invocation.parse {} ["--config", "c", "preview", "a:b", "-q", "-e", "f"] = .ok i ∧
      (s.run i).failure = none ∧ (s.run i).out = "" ∧ (s.run i).notes = "" := by
  intro i s
  have hi : Invocation.parse {} ["--config", "c", "preview", "a:b", "-q", "-e", "f"] = .ok i := by
    rfl
  have hfailure : (s.run i).failure = none := by decide +kernel
  obtain ⟨hout, hnotes⟩ :=
    (quiet_run_prints_nothing hi).2 s (.preview "a:b" "f" none) rfl rfl rfl rfl hfailure
  exact ⟨hi, hfailure, hout, hnotes.mpr (.inl rfl)⟩

/-- Quiet before the command and verbose after it are both heard, and the run remarks. -/
theorem quiet_and_verbose_at_two_levels :
    ∃ i, Invocation.parse {} ["-q", "--config", "c", "preview", "a:b", "-e", "f", "-v"] = .ok i ∧
      i.preferences.quiet = true ∧ i.preferences.verbose = true ∧ i.preferences.json = false ∧
      (Session.run ⟨{}, ⟨[(⟨false, ["f"]⟩, .file (.text "[]"))]⟩, .text ""⟩ i).failure = none ∧
      (Session.run ⟨{}, ⟨[(⟨false, ["f"]⟩, .file (.text "[]"))]⟩, .text ""⟩ i).notes =
        "Evaluated a:b against 0 events\n" := by
  refine ⟨_, rfl, rfl, rfl, rfl, ?_, ?_⟩
  · decide +kernel
  · decide +kernel

end CalendarRules
