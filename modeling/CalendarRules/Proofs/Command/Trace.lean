import CalendarRules.Command.Run
import CalendarRules.Proofs.Files.Folders

/-!
# What a run leaves behind

Only the commands that write the file of the configuration change files. They make the folder of
the file before they know whether there is anything to write, so one that fails may leave folders
behind, and nothing else.
-/

namespace CalendarRules

open FileTree

/-! ## Commands that change no files -/

/-- The command writes the file of the configuration. -/
def Command.writes : Command → Bool
  | .config (.init _) | .config (.set ..) => true
  | _ => false

def Invocation.writes (i : Invocation) : Bool := i.command.any Command.writes

namespace Session

theorem files_ending {s : Session} {result : Except Failure Ending}
    (h : ∀ e, result = .ok e → e.files = s.files) : (s.ending result).files = s.files := by
  cases result with
  | ok e => exact h e rfl
  | error => rfl

theorem files_check {s : Session} {m : Manner} {query : String} {e : Ending}
    (h : s.check m query = .ok e) : e.files = s.files := by
  obtain ⟨q, -, h⟩ := bind_eq_ok h
  cases h
  rfl

theorem files_preview {s : Session} {m : Manner} {query events : String} {limit : Nat} {e : Ending}
    (h : s.preview m query events limit = .ok e) : e.files = s.files := by
  obtain ⟨es, -, h⟩ := bind_eq_ok h
  obtain ⟨p, -, h⟩ := bind_eq_ok h
  cases h
  rfl

theorem files_apply {s : Session} {m : Manner} {c : Config} {events : String}
    {rules : Option String} {matchedOnly : Bool} {e : Ending}
    (h : s.apply m c events rules matchedOnly = .ok e) : e.files = s.files := by
  have hbook (book : RuleBook) : (s.applyBook m book events matchedOnly).files = s.files := by
    unfold applyBook
    simp only
    split <;> rfl
  cases rules with
  | none => cases h; exact hbook c.book
  | some path =>
    obtain ⟨book, -, h⟩ := bind_eq_ok h
    cases h
    exact hbook book

theorem files_showConfig {s : Session} {m : Manner} {p : Preferences} {e : Ending}
    (h : s.showConfig m p = .ok e) : e.files = s.files := by
  obtain ⟨c, -, h⟩ := bind_eq_ok h
  obtain ⟨path, -, h⟩ := bind_eq_ok h
  cases h
  rfl

theorem files_printPath {s : Session} {m : Manner} {p : Preferences} {e : Ending}
    (h : s.printPath m p = .ok e) : e.files = s.files := by
  obtain ⟨path, -, h⟩ := bind_eq_ok h
  cases h
  rfl

theorem files_runCommand {s : Session} {p : Preferences} {command : Command} {e : Ending}
    (hwrites : command.writes = false) (h : s.runCommand p command = .ok e) :
    e.files = s.files := by
  cases command with
  | check query =>
    obtain ⟨c, -, h⟩ := bind_eq_ok h
    exact files_check h
  | preview query events limit =>
    obtain ⟨c, -, h⟩ := bind_eq_ok h
    exact files_preview h
  | apply events rules matchedOnly =>
    obtain ⟨c, -, h⟩ := bind_eq_ok h
    exact files_apply h
  | completions shell => cases h; rfl
  | config command =>
    cases command with
    | «show» => exact files_showConfig h
    | path => exact files_printPath h
    | init | set => cases hwrites

theorem files_run_of_not_writes {s : Session} {i : Invocation} (h : i.writes = false) :
    (s.run i).files = s.files := by
  unfold run
  cases hcommand : i.command with
  | none => rfl
  | some command =>
    have hwrites : command.writes = false := by simpa [Invocation.writes, hcommand] using h
    exact files_ending fun e => files_runCommand hwrites

end Session

/-! ## Commands that fail to write -/

namespace Config

theorem files_of_save {t : FileTree} {path : String} {c : Config}
    (h : (save t path c).2 ≠ none) : (save t path c).1 = (t.makeParent (Path.ofString path)).1 := by
  unfold save at h ⊢
  simp only at h ⊢
  cases hmade : t.makeParent (Path.ofString path) with
  | mk made fault =>
    rw [hmade] at h
    cases fault with
    | some fault => rfl
    | none =>
      cases htext : c.toText? with
      | none => rfl
      | some text =>
        simp only [htext] at h ⊢
        cases hwrite : made.writeText (Path.ofString path) text with
        | error fault => rfl
        | ok written =>
          rw [hwrite] at h
          exact absurd rfl h

theorem files_of_create {t : FileTree} {path : String} {force : Bool}
    (h : (create t path force).2 ≠ none) :
    (create t path force).1 = t ∨
      (create t path force).1 = (t.makeParent (Path.ofString path)).1 := by
  unfold create at h ⊢
  simp only at h ⊢
  split
  · exact .inl rfl
  · rename_i hpresent
    rw [if_neg hpresent] at h
    refine .inr ?_
    cases hmade : t.makeParent (Path.ofString path) with
    | mk made fault =>
      rw [hmade] at h
      cases fault with
      | some fault => rfl
      | none =>
        simp only at h ⊢
        cases hwrite : made.writeText (Path.ofString path) firstText with
        | error fault => rfl
        | ok written =>
          rw [hwrite] at h
          exact absurd rfl h

end Config

namespace Session

theorem failure_changed {result : FileTree × Option ConfigFault} {out : String}
    (h : (changed result out).failure ≠ none) :
    result.2 ≠ none ∧ (changed result out).files = result.1 := by
  obtain ⟨files, fault⟩ := result
  cases fault with
  | none => exact absurd rfl h
  | some fault => exact ⟨by simp, rfl⟩

/-- The command ends without a change, or by making the folder of the configuration. -/
def EndsAtFolder (s : Session) (p : Preferences) (e : Ending) : Prop :=
  e.failure ≠ none → e.files = s.files ∨
    ∃ path, Config.locate s.env p.configPath = .ok path ∧
      e.files = (s.files.makeParent (Path.ofString path)).1

theorem locate_of_configPath {s : Session} {p : Preferences} {path : String}
    (h : s.configPath p = .ok path) : Config.locate s.env p.configPath = .ok path := by
  unfold configPath at h
  cases hlocate : Config.locate s.env p.configPath with
  | error fault => rw [hlocate] at h; cases h
  | ok found => rw [hlocate] at h; cases h; rfl

theorem endsAtFolder_init {s : Session} {m : Manner} {p : Preferences} {force : Bool} {e : Ending}
    (h : s.initConfig m p force = .ok e) : EndsAtFolder s p e := by
  obtain ⟨path, hpath, h⟩ := bind_eq_ok h
  cases h
  intro hfailure
  obtain ⟨hfault, hfiles⟩ := failure_changed hfailure
  rw [hfiles]
  rcases Config.files_of_create hfault with hkept | hmade
  · exact .inl hkept
  · exact .inr ⟨path, locate_of_configPath hpath, hmade⟩

theorem endsAtFolder_set {s : Session} {m : Manner} {p : Preferences} {key value : String}
    {e : Ending} (h : s.setConfig m p key value = .ok e) : EndsAtFolder s p e := by
  obtain ⟨c, -, h⟩ := bind_eq_ok h
  obtain ⟨path, hpath, h⟩ := bind_eq_ok h
  obtain ⟨setting, -, h⟩ := bind_eq_ok h
  cases h
  intro hfailure
  obtain ⟨hfault, hfiles⟩ := failure_changed hfailure
  rw [hfiles]
  exact .inr ⟨path, locate_of_configPath hpath, Config.files_of_save hfault⟩

theorem endsAtFolder_ending {s : Session} {p : Preferences} {result : Except Failure Ending}
    (h : ∀ e, result = .ok e → EndsAtFolder s p e) : EndsAtFolder s p (s.ending result) := by
  cases result with
  | ok e => exact h e rfl
  | error => exact fun _ => .inl rfl

theorem endsAtFolder_run (s : Session) (i : Invocation) :
    EndsAtFolder s i.preferences (s.run i) := by
  by_cases hwrites : i.writes = true
  · unfold run
    cases hcommand : i.command with
    | none => exact fun _ => .inl rfl
    | some command =>
      refine endsAtFolder_ending ?_
      intro e h
      rw [Invocation.writes, hcommand] at hwrites
      cases command with
      | config command =>
        cases command with
        | init force => exact endsAtFolder_init h
        | set key value => exact endsAtFolder_set h
        | «show» | path => cases hwrites
      | check | preview | apply | completions => cases hwrites
  · exact fun _ => .inl (files_run_of_not_writes (by simpa using hwrites))

/-! ## The trace of a run -/

/-- A run of a command that does not write changes nothing. One that fails changes nothing either,
unless the folder of the configuration was missing. Then it keeps every file and folder, and adds
folders on the way to that one. -/
theorem failed_run_adds_only_folders (s : Session) (i : Invocation) :
    (i.writes = false → (s.run i).files = s.files) ∧
    ((s.run i).failure ≠ none →
      (s.run i).files = s.files ∨
      ∃ path folder, Config.locate s.env i.preferences.configPath = .ok path ∧
        (Path.ofString path).parent? = some folder ∧ s.files.hasFolder folder = false ∧
        Grew folder s.files (s.run i).files) := by
  refine ⟨files_run_of_not_writes, ?_⟩
  intro hfailure
  rcases endsAtFolder_run s i hfailure with hkept | ⟨path, hpath, hmade⟩
  · exact .inl hkept
  · cases hparent : (Path.ofString path).parent? with
    | none =>
      left
      rw [hmade, makeParent_of_hasFolder (by simp [hparent])]
    | some folder =>
      cases hfolder : s.files.hasFolder folder with
      | true =>
        left
        rw [hmade, makeParent_of_hasFolder (by simp [hparent, hfolder])]
      | false =>
        right
        exact ⟨path, folder, hpath, hparent, hfolder, hmade ▸ grew_makeParent s.files hparent⟩

/-- A limit that has no written form is refused after the folder of the file is made. -/
theorem failed_set_leaves_folder :
    ∃ i, Invocation.parse {}
        ["--config", "d/c.toml", "config", "set", "preview.limit", "9223372036854775808"] = .ok i ∧
      (run ⟨{}, {}, .text ""⟩ i).failure = some (.config .noText) ∧
      (run ⟨{}, {}, .text ""⟩ i).files = ⟨[(⟨false, ["d"]⟩, .folder)]⟩ := by
  refine ⟨_, rfl, ?_, ?_⟩
  · decide +kernel
  · decide +kernel

end Session

end CalendarRules
