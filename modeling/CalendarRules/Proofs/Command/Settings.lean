import CalendarRules.Command.Run
import CalendarRules.Proofs.Config.Setting
import CalendarRules.Proofs.Files.Writing
import Mathlib.Data.List.Induction

/-!
# Runs that set one setting after another

Each such run reads the whole configuration and writes the whole of it again. What carries the
proof over many runs is that the file, once written, gives back what was written, and that its
folder is there from then on.
-/

namespace CalendarRules

open FileTree

/-! ## A file that can be written -/

/-- The configuration can be loaded, and its file made and written. A missing file does not turn up
when the missing folders on its path are made. -/
structure Config.Ready (t : FileTree) (path : String) (c : Config) : Prop where
  load : Config.load t path = .ok c
  made : (t.makeParent (Path.ofString path)).2 = none
  written : ∃ t', (t.makeParent (Path.ofString path)).1.writeText (Path.ofString path) "" = .ok t'
  absent : t.has (Path.ofString path) = false →
    (t.makeParent (Path.ofString path)).1.has (Path.ofString path) = false

namespace Config

variable {t : FileTree} {path : String} {c : Config}

theorem load_of_has (h : t.has (Path.ofString path) = true) :
    load t path = .ok c ↔
      ∃ text, t.read (Path.ofString path) = .ok (.text text) ∧ ofString? text = some c := by
  unfold load
  simp only [h, if_true, ← readText_eq_ok_iff]
  cases t.readText (Path.ofString path) with
  | error fault => simp [Except.mapError, bind, Except.bind]
  | ok text =>
    simp only [Except.mapError, bind, Except.bind, Except.ok.injEq, exists_eq_left']
    cases ofString? text <;> simp

theorem load_of_absent (h : t.has (Path.ofString path) = false) : load t path = .ok {} := by
  unfold load
  simp [h]

theorem load_cases (h : load t path = .ok c) :
    (∃ text, t.read (Path.ofString path) = .ok (.text text) ∧ ofString? text = some c) ∨
      t.has (Path.ofString path) = false ∧ c = {} := by
  cases hhas : t.has (Path.ofString path) with
  | true => exact .inl ((load_of_has hhas).mp h)
  | false =>
    rw [load_of_absent hhas] at h
    cases h
    exact .inr ⟨rfl, rfl⟩

theorem storable_of_load (h : load t path = .ok c) : c.Storable := by
  rcases load_cases h with ⟨text, -, hc⟩ | ⟨-, rfl⟩
  · exact storable_of_ofString? hc
  · exact storable_default

/-! ## Storing a configuration -/

theorem ready_of_read {text : String} (hread : t.read (Path.ofString path) = .ok (.text text))
    (hc : ofString? text = some c) : Ready t path c := by
  have hmade := makeParent_of_read hread
  have hhas := has_of_read hread
  refine ⟨(load_of_has hhas).mpr ⟨text, hread, hc⟩, by rw [hmade], ?_, ?_⟩
  · rw [hmade]
    exact writeText_of_read hread ""
  · intro habsent
    rw [hhas] at habsent
    cases habsent

theorem save_of_made (h : (t.makeParent (Path.ofString path)).2 = none) (new : Config) :
    save t path new =
      match new.toText? with
      | none => ((t.makeParent (Path.ofString path)).1, some .noText)
      | some text =>
        match (t.makeParent (Path.ofString path)).1.writeText (Path.ofString path) text with
        | .error fault => ((t.makeParent (Path.ofString path)).1, some (.notWritten fault))
        | .ok t' => (t', none) := by
  unfold save
  simp only
  cases hmade : t.makeParent (Path.ofString path) with
  | mk made fault =>
    rw [hmade] at h
    cases h
    cases new.toText? <;> rfl

theorem save_of_text {new : Config} {text : String} (h : Ready t path c)
    (htext : new.toText? = some text) :
    ∃ t', save t path new = (t', none) ∧ t'.read (Path.ofString path) = .ok (.text text) := by
  obtain ⟨_, hwritten⟩ := h.written
  obtain ⟨t', ht'⟩ := writeText_any hwritten text
  refine ⟨t', ?_, read_of_writeText ht'⟩
  rw [save_of_made h.made, htext]
  simp only [ht']

theorem save_of_no_text {new : Config} (h : Ready t path c) (htext : new.toText? = none) :
    save t path new = ((t.makeParent (Path.ofString path)).1, some .noText) := by
  rw [save_of_made h.made, htext]

theorem read_makeParent (h : Ready t path c) :
    ((t.makeParent (Path.ofString path)).1.read (Path.ofString path)).toOption =
      (t.read (Path.ofString path)).toOption := by
  rcases load_cases h.load with ⟨text, hread, -⟩ | ⟨habsent, -⟩
  · rw [makeParent_of_read hread]
  · rw [read_of_not_has habsent, read_of_not_has (h.absent habsent)]

theorem ready_makeParent (h : Ready t path c) :
    Ready (t.makeParent (Path.ofString path)).1 path c := by
  have hagain := makeParent_makeParent h.made
  rcases load_cases h.load with ⟨text, hread, hc⟩ | ⟨habsent, rfl⟩
  · rw [makeParent_of_read hread]
    exact h
  · refine ⟨load_of_absent (h.absent habsent), by rw [hagain], by rw [hagain]; exact h.written, ?_⟩
    rw [hagain]
    exact id

end Config

/-! ## One run -/

/-- A run that is to set a value. -/
structure SetRun where
  preferences : Preferences
  key : String
  value : String
  deriving DecidableEq, Repr

namespace SetRun

def invocation (r : SetRun) : Invocation := ⟨r.preferences, some (.config (.set r.key r.value))⟩

/-- The setting that the run is to store, if it is one that can be stored. -/
def setting? (r : SetRun) : Option Setting := Setting.accepted? r.key r.value

end SetRun

namespace Session

/-- What the next run starts from. -/
def after (s : Session) (i : Invocation) : Session := { s with files := (s.run i).files }

variable {s : Session} {path : String} {c : Config} {r : SetRun}

theorem run_set (hload : Config.load s.files path = .ok c)
    (hpath : Config.locate s.env r.preferences.configPath = .ok path) :
    (∃ fault, Setting.ofKey r.key r.value = .error fault ∧
      s.run r.invocation = s.fails (.config (.setting fault))) ∨
    ∃ setting out, Setting.ofKey r.key r.value = .ok setting ∧
      s.run r.invocation = changed (Config.save s.files path (c.put setting)) out := by
  have hlocated : s.configPath r.preferences = .ok path := by
    unfold configPath
    rw [hpath]
    rfl
  have hloaded : s.loadConfig r.preferences = .ok c := by
    unfold loadConfig
    rw [hlocated]
    show (Config.load s.files path).mapError Failure.config = _
    rw [hload]
    rfl
  unfold run SetRun.invocation runCommand configCommand setConfig
  simp only [hloaded, hlocated]
  cases hsetting : Setting.ofKey r.key r.value with
  | error fault => exact .inl ⟨fault, rfl, rfl⟩
  | ok setting => exact .inr ⟨setting, _, rfl, rfl⟩

theorem ready_of_accepted (h : Config.Ready s.files path c)
    (hpath : Config.locate s.env r.preferences.configPath = .ok path) {setting : Setting}
    (hsetting : r.setting? = some setting) :
    (s.run r.invocation).failure = none ∧
      Config.Ready (s.after r.invocation).files path (c.put setting) := by
  obtain ⟨hkey, hfits⟩ := (Setting.accepted?_eq_some_iff _ _ _).mp hsetting
  have hstorable := (Config.storable_of_load h.load).put hfits
  obtain ⟨text, htext⟩ := Config.toText?_of_storable hstorable
  obtain ⟨t', hsave, hread⟩ := Config.save_of_text h htext
  rcases run_set h.load hpath with ⟨fault, hfault, -⟩ | ⟨found, out, hfound, hrun⟩
  · rw [hkey] at hfault
    cases hfault
  · rw [hkey] at hfound
    cases hfound
    unfold after
    rw [hrun, hsave]
    exact ⟨rfl, Config.ready_of_read hread (Config.ofString?_toText hstorable htext)⟩

theorem ready_of_refused (h : Config.Ready s.files path c)
    (hpath : Config.locate s.env r.preferences.configPath = .ok path)
    (hsetting : r.setting? = none) :
    (s.run r.invocation).failure ≠ none ∧
      ((s.after r.invocation).files.read (Path.ofString path)).toOption =
        (s.files.read (Path.ofString path)).toOption ∧
      Config.Ready (s.after r.invocation).files path c := by
  rcases run_set h.load hpath with ⟨fault, -, hrun⟩ | ⟨setting, out, hkey, hrun⟩
  · unfold after
    rw [hrun]
    exact ⟨by simp [fails], rfl, h⟩
  · have hfits : ¬setting.Fits := by
      intro hfits
      have haccepted := (Setting.accepted?_eq_some_iff _ _ _).mpr ⟨hkey, hfits⟩
      rw [SetRun.setting?, haccepted] at hsetting
      cases hsetting
    unfold after
    rw [hrun, Config.save_of_no_text h (Config.toText?_put_eq_none hfits)]
    exact ⟨by simp [changed], Config.read_makeParent h, Config.ready_makeParent h⟩

/-! ## Many runs -/

/-- What is left after the runs, each of which starts from the files of the one before it. -/
def afterAll (s : Session) (runs : List SetRun) : Session :=
  runs.foldl (fun s r => s.after r.invocation) s

theorem afterAll_concat (s : Session) (runs : List SetRun) (r : SetRun) :
    s.afterAll (runs ++ [r]) = (s.afterAll runs).after r.invocation := by
  simp [afterAll, List.foldl_append]

theorem env_afterAll (s : Session) (runs : List SetRun) : (s.afterAll runs).env = s.env := by
  induction runs using List.reverseRecOn with
  | nil => rfl
  | append_singleton runs r ih =>
    rw [afterAll_concat]
    exact ih

end Session

/-- The last flag that one of the runs is to store. -/
def lastColour? (runs : List SetRun) : Option Bool :=
  runs.reverse.findSome? fun r =>
    match r.setting? with
    | some (.colour on) => some on
    | _ => none

/-- The last limit that one of the runs is to store. -/
def lastLimit? (runs : List SetRun) : Option Nat :=
  runs.reverse.findSome? fun r =>
    match r.setting? with
    | some (.limit n) => some n
    | _ => none

/-- The configuration with the last settings of the runs, and the same in all else. -/
def Config.withLast (c : Config) (runs : List SetRun) : Config :=
  { c with colour := (lastColour? runs).or c.colour, limit := (lastLimit? runs).or c.limit }

theorem Config.withLast_concat (c : Config) (runs : List SetRun) (r : SetRun) :
    c.withLast (runs ++ [r]) =
      match r.setting? with
      | some setting => (c.withLast runs).put setting
      | none => c.withLast runs := by
  unfold withLast lastColour? lastLimit?
  rw [List.reverse_append]
  cases h : r.setting? with
  | none => simp [h]
  | some setting => cases setting <;> simp [h, put]

namespace Session

variable {s : Session} {path : String} {c : Config} {runs : List SetRun}

theorem ready_afterAll (h : Config.Ready s.files path c)
    (hpath : ∀ r ∈ runs, Config.locate s.env r.preferences.configPath = .ok path) :
    Config.Ready (s.afterAll runs).files path (c.withLast runs) := by
  induction runs using List.reverseRecOn with
  | nil => exact h
  | append_singleton runs r ih =>
    rw [List.forall_mem_append, List.forall_mem_singleton] at hpath
    have hbefore := ih hpath.1
    have hlast := hpath.2
    rw [← env_afterAll s runs] at hlast
    rw [afterAll_concat, Config.withLast_concat]
    cases hsetting : r.setting? with
    | none => exact (ready_of_refused hbefore hlast hsetting).2.2
    | some setting => exact (ready_of_accepted hbefore hlast hsetting).2

/-- Over any number of runs nothing changes but the two settings, which end up as the last run that
succeeded for each of them left them. A run succeeds if its key and value can be stored, and one
that fails leaves what the file holds. -/
theorem set_runs_change_settings_only (h : Config.Ready s.files path c)
    (hpath : ∀ r ∈ runs, Config.locate s.env r.preferences.configPath = .ok path) :
    Config.load (s.afterAll runs).files path =
        .ok { c with
          colour := (lastColour? runs).or c.colour
          limit := (lastLimit? runs).or c.limit } ∧
      ∀ before r later, runs = before ++ r :: later →
        (((s.afterAll before).run r.invocation).failure = none ↔
          (Setting.accepted? r.key r.value).isSome) ∧
        (((s.afterAll before).run r.invocation).failure ≠ none →
          (((s.afterAll before).run r.invocation).files.read (Path.ofString path)).toOption =
            ((s.afterAll before).files.read (Path.ofString path)).toOption) := by
  refine ⟨(ready_afterAll h hpath).load, ?_⟩
  rintro before r later rfl
  rw [List.forall_mem_append, List.forall_mem_cons] at hpath
  obtain ⟨hbefore, hlast, -⟩ := hpath
  have hready := ready_afterAll h hbefore
  rw [← env_afterAll s before] at hlast
  cases hsetting : r.setting? with
  | none =>
    obtain ⟨hfailure, hread, -⟩ := ready_of_refused hready hlast hsetting
    refine ⟨?_, fun _ => hread⟩
    rw [SetRun.setting?] at hsetting
    simp [hsetting, hfailure]
  | some setting =>
    obtain ⟨hfailure, -⟩ := ready_of_accepted hready hlast hsetting
    rw [SetRun.setting?] at hsetting
    simp [hsetting, hfailure]

/-- Three runs on a file with a rule: the first two are accepted, and the limit of the third is too
large to be stored. -/
theorem set_runs_keep_rule :
    let text :=
      "[[rules]]\nid = 'a'\nquery = \"title:'x y'\"\npriority = -5\ntarget_type = 'did_not_attend'"
    let s : Session := ⟨{}, ⟨[(⟨false, ["c.toml"]⟩, .file (.text text))]⟩, .text ""⟩
    let rule : Rule :=
      { id := "a", query := "title:'x y'", target := .didNotAttend, priority := -5 }
    let p : Preferences := { configPath := some "c.toml" }
    let runs : List SetRun := [⟨p, "output.color", "YeS"⟩, ⟨p, "preview.limit", "+07"⟩,
      ⟨p, "preview.limit", "9223372036854775808"⟩]
    Config.load (s.afterAll runs).files "c.toml" =
      .ok { colour := some true, limit := some 7, book := { rules := [rule] } } := by
  intro text s rule p runs
  have hready : Config.Ready s.files "c.toml" { book := { rules := [rule] } } :=
    ⟨by decide +kernel, by decide +kernel, ⟨_, rfl⟩, by decide +kernel⟩
  have hpath : ∀ r ∈ runs, Config.locate s.env r.preferences.configPath = .ok "c.toml" := by
    decide +kernel
  have hcolour : lastColour? runs = some true := by decide +kernel
  have hlimit : lastLimit? runs = some 7 := by decide +kernel
  have hload := (set_runs_change_settings_only hready hpath).1
  rw [hcolour, hlimit] at hload
  exact hload

/-- A file that is reached through a missing folder and back up is missing until that folder is
made, and a run that fails makes it. -/
theorem failed_set_brings_file_to_light :
    let text := "[preview]\nlimit = 3\n"
    let t : FileTree :=
      ⟨[(⟨false, ["b"]⟩, .folder), (⟨false, ["b", "c.toml"]⟩, .file (.text text))]⟩
    let path := "a/../b/c.toml"
    let r : SetRun :=
      ⟨{ configPath := some path }, "preview.limit", "9223372036854775808"⟩
    let s : Session := ⟨{}, t, .text ""⟩
    Config.load t path = .ok {} ∧ (t.makeParent (Path.ofString path)).2 = none ∧
      (∃ t', (t.makeParent (Path.ofString path)).1.writeText (Path.ofString path) "" = .ok t') ∧
      (s.run r.invocation).failure = some (.config .noText) ∧
      Config.load (s.run r.invocation).files path = .ok { limit := some 3 } := by
  refine ⟨by decide +kernel, by decide +kernel, ⟨_, rfl⟩, by decide +kernel, by decide +kernel⟩

end Session

end CalendarRules
