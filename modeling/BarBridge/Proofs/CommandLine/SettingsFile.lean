import Mathlib.Data.List.Find
import BarBridge.Proofs.CommandLine.Course
import BarBridge.Proofs.Files.Removal

/-!
# A settings file and the command line

What a settings file states can as well be stated on the command line: a run with the file does what
a run without it does whose arguments are completed by what the file states
(`settings_file_as_arguments`). There is nothing else that a run takes from the file. So where the
arguments leave nothing open, it does not matter what the file states.

Two things are in play besides merging. The file is one of the tree, and the two runs have different
trees. That only matters to a path that leads to the file, or, if it is written, through it. Of all
paths of a run this can be the stated path of the configuration or the output directory. The other
places of a configuration have other names, and so have all artifacts and their directories.
-/

namespace BarBridge

open FileTree

variable {args : Arguments} {env : Environment} {t : FileTree} {cwd name : String} {s : Settings}
  {loc : Location}

/-- The outcome without what stands at a location. -/
def Outcome.without (o : Outcome) (loc : Location) : Outcome :=
  { o with tree := o.tree.without loc }

/-- Arguments with what they leave open taken from settings. -/
def Arguments.completed (args : Arguments) (s : Settings) : Arguments :=
  { args with
    outputDir := args.outputDir.or s.outputDir
    mode := args.mode.or s.mode
    defaultInterval := args.defaultInterval.or s.defaultInterval
    signalPollInterval := args.signalPollInterval.or s.signalPollInterval }

/-- Whether arguments leave nothing open that settings could state. -/
structure Arguments.IsComplete (args : Arguments) : Prop where
  outputDir : args.outputDir.isSome = true
  mode : args.mode.isSome = true
  defaultInterval : args.defaultInterval.isSome = true
  signalPollInterval : args.signalPollInterval.isSome = true

/-- `OnlySettings t cwd name s` says that of the settings files there could be, the one of the given
name is the only one, and that it states `s`. -/
structure OnlySettings (t : FileTree) (cwd name : String) (s : Settings) : Prop where
  mem : name ∈ Settings.candidates
  stated : ∃ text, t.file? cwd (Path.join cwd name) = some (.text text) ∧
    Settings.parse text = .ok s
  only : ∀ other ∈ Settings.candidates, other ≠ name → t.isFile cwd (Path.join cwd other) = false

/-- Where the settings file of a name is. -/
def settingsLocation (cwd name : String) : Location :=
  destination cwd (Path.join cwd name)

/-! ## Merging -/

theorem merge_completed (args : Arguments) (s : Settings) :
    RunSettings.merge (args.completed s) {} = RunSettings.merge args s := by
  simp only [RunSettings.merge, Arguments.completed, Settings.options, Settings.effectiveMode,
    Option.or_none, Option.getD_or, Option.getD_none]

theorem Arguments.IsComplete.completed_eq (h : args.IsComplete) (s : Settings) :
    args.completed s = args := by
  rw [Arguments.completed, Option.or_of_isSome h.outputDir, Option.or_of_isSome h.mode,
    Option.or_of_isSome h.defaultInterval, Option.or_of_isSome h.signalPollInterval]

/-! ## Finding the settings file

The names are tried in order, and the first one that denotes a file is taken. Where it is the only
one its place in the order does not matter, and without it there is nothing to find. -/

theorem findSome?_eq_of_only {α β : Type} {f : α → Option β} {l : List α} {a : α} {b : β}
    (hmem : a ∈ l) (ha : f a = some b) (honly : ∀ x ∈ l, x ≠ a → f x = none) :
    l.findSome? f = some b := by
  induction l with
  | nil => contradiction
  | cons x l ih =>
    rw [List.findSome?_cons]
    by_cases hx : x = a
    · rw [hx, ha]
    · rw [honly x List.mem_cons_self hx]
      exact ih (List.mem_of_ne_of_mem (Ne.symm hx) hmem)
        fun y hy ↦ honly y (List.mem_cons_of_mem x hy)

theorem OnlySettings.file?_eq_none (h : OnlySettings t cwd name s) {other : String}
    (hother : other ∈ Settings.candidates) (hne : other ≠ name) :
    t.file? cwd (Path.join cwd other) = none :=
  Option.not_isSome_iff_eq_none.mp (Bool.eq_false_iff.mp (h.only other hother hne))

theorem OnlySettings.load (h : OnlySettings t cwd name s) : Settings.load t cwd = .ok (some s) := by
  obtain ⟨text, hfile, hparse⟩ := h.stated
  have hfound : (Settings.candidates.findSome? fun other ↦ t.file? cwd (Path.join cwd other)) =
      some (.text text) :=
    findSome?_eq_of_only h.mem hfile fun _ ↦ h.file?_eq_none
  rw [Settings.load, hfound]
  simp only [Contents.read, hparse]
  rfl

theorem OnlySettings.exists_file (h : OnlySettings t cwd name s) :
    ∃ text, t.lookup? (settingsLocation cwd name) = some (.file (.text text)) := by
  obtain ⟨text, hfile, -⟩ := h.stated
  exact ⟨text, fileAt?_eq_some_iff.mp (fileAt?_of_file? hfile)⟩

theorem OnlySettings.load_without (h : OnlySettings t cwd name s) :
    Settings.load (t.without (settingsLocation cwd name)) cwd = .ok none := by
  obtain ⟨text, hfile⟩ := h.exists_file
  have hnone : (Settings.candidates.findSome? fun other ↦
      (t.without (settingsLocation cwd name)).file? cwd (Path.join cwd other)) = none := by
    rw [List.findSome?_eq_none_iff]
    intro other hother
    by_cases hloc : destination cwd (Path.join cwd other) = settingsLocation cwd name
    · exact file?_without_self (ne_nil_of_file hfile) hloc
    · have hne : other ≠ name := fun heq ↦ hloc (by rw [heq, settingsLocation])
      rw [file?_without hfile hloc, h.file?_eq_none hother hne]
  rw [Settings.load, hnone]

theorem OnlySettings.set {s' : Settings} (h : OnlySettings t cwd name s) {text : String}
    (hparse : Settings.parse text = .ok s') :
    OnlySettings (t.set (settingsLocation cwd name) (.file (.text text))) cwd name s' := by
  obtain ⟨old, hfile⟩ := h.exists_file
  obtain ⟨_, hstated, -⟩ := h.stated
  refine ⟨h.mem, ⟨text, file?_set hstated _, hparse⟩, fun other hother hne ↦ ?_⟩
  rw [isFile_set hfile, h.only other hother hne]

/-! ## The location of a settings file

Where a settings file is depends on the working directory, but what it is called there is one of two
names. No artifact, no directory of artifacts and no place where a configuration is looked for ends
in one of these. So it is enough to look at the last component of a location to tell it from that of
the file. -/

/-- The last names of the paths of settings files. -/
def settingsNames : List String :=
  ["wayconv.toml", ".wayconv.toml"]

theorem getLast?_candidates : ∀ name ∈ Settings.candidates, Path.isAbsolute name = false ∧
    Path.namesDirectory name = false ∧
      ∃ last ∈ settingsNames, (Path.components name).getLast? = some last := by
  decide

theorem exists_settingsNames (cwd : String) (hmem : name ∈ Settings.candidates) :
    ∃ last ∈ settingsNames, (settingsLocation cwd name).getLast? = some last := by
  obtain ⟨hrelative, hfile, last, hlast, hname⟩ := getLast?_candidates name hmem
  exact ⟨last, hlast, getLast?_destination_join hrelative hfile hname⟩

theorem getLast?_settingsLocation_ne {other : String} (hmem : name ∈ Settings.candidates)
    (hother : other ∉ settingsNames) : (settingsLocation cwd name).getLast? ≠ some other := by
  obtain ⟨last, hlast, hloc⟩ := exists_settingsNames cwd hmem
  rw [hloc]
  rintro heq
  exact hother (Option.some.inj heq ▸ hlast)

theorem Address.notMem_settingsNames (a : Address) : ∀ c ∈ a.components, c ∉ settingsNames := by
  cases a with
  | widgets => decide
  | warnings => decide
  | widget stem =>
    have hlast : ∀ name ∈ settingsNames, name.toList.getLast? ≠ some 'n' := by decide
    rw [components, List.forall_mem_cons, List.forall_mem_singleton]
    refine ⟨by decide, fun hmem ↦ hlast _ hmem ?_⟩
    rw [String.toList_append, List.getLast?_append]
    rfl
  | plugin stem file =>
    have hfirst : ∀ name ∈ settingsNames, name.toList[3]? ≠ some 'b' := by decide
    have hfile : ∀ c ∈ file.components, c ∉ settingsNames := by cases file <;> decide
    rw [components, List.forall_mem_cons, List.forall_mem_cons]
    refine ⟨by decide, fun hmem ↦ hfirst _ hmem ?_, hfile⟩
    rw [String.toList_append]
    rfl

theorem destination_ne_of_mem_configCandidates (hmem : name ∈ Settings.candidates) {path : String}
    (hpath : path ∈ env.configCandidates) :
    destination env.cwd path ≠ settingsLocation env.cwd name := by
  have hlast : ∃ last, last ∉ settingsNames ∧ (destination env.cwd path).getLast? = some last := by
    rw [Environment.configCandidates, List.mem_append] at hpath
    rcases hpath with hpath | hpath
    · split at hpath
      · rcases List.mem_cons.mp hpath with rfl | hpath
        · exact ⟨"config", by decide,
            getLast?_destination_join (by decide) (by decide) (by decide)⟩
        · obtain rfl := List.mem_singleton.mp hpath
          exact ⟨"config.jsonc", by decide,
            getLast?_destination_join (by decide) (by decide) (by decide)⟩
      · contradiction
    · obtain rfl := List.mem_singleton.mp hpath
      exact ⟨"config", by decide, getLast?_destination (by decide) (by decide)⟩
  obtain ⟨last, hother, hlast⟩ := hlast
  rintro heq
  exact getLast?_settingsLocation_ne hmem hother (heq ▸ hlast)

/-! ## Reading without the settings file -/

theorem locateConfig_congr {t' : FileTree} {stated : Option String}
    (h : ∀ path, stated = some path ∨ path ∈ env.configCandidates →
      t'.isFile env.cwd path = t.isFile env.cwd path) :
    env.locateConfig t' stated = env.locateConfig t stated := by
  rcases stated with _ | path
  · have hfind : env.configCandidates.find? (t'.isFile env.cwd) =
        env.configCandidates.find? (t.isFile env.cwd) :=
      List.find?_congr fun path hpath ↦ h path (.inr hpath)
    simp only [Environment.locateConfig, hfind]
  · simp only [Environment.locateConfig, h path (.inl rfl)]

theorem locateConfig_eq_ok {stated : Option String} {path : String}
    (h : env.locateConfig t stated = .ok path) :
    stated = some path ∨ path ∈ env.configCandidates := by
  unfold Environment.locateConfig at h
  split at h
  · split at h
    · exact .inl (congrArg some (Except.ok.inj h))
    · contradiction
  · split at h
    · next hfind => exact .inr (Except.ok.inj h ▸ List.mem_of_find?_eq_some hfind)
    · contradiction

section

variable (h : OnlySettings t env.cwd name s) (hconfig : ∀ path, args.configPath = some path →
  destination env.cwd path ≠ settingsLocation env.cwd name)

include h hconfig

/-- **The settings file is read for its settings only.** -/
theorem readInputs_without :
    readInputs (args.completed s) env (t.without (settingsLocation env.cwd name)) =
      readInputs args env t := by
  obtain ⟨text, hfile⟩ := h.exists_file
  have hpaths : ∀ path, args.configPath = some path ∨ path ∈ env.configCandidates →
      (t.without (settingsLocation env.cwd name)).file? env.cwd path = t.file? env.cwd path := by
    rintro path (hstated | hplace)
    · exact file?_without hfile (hconfig path hstated)
    · exact file?_without hfile (destination_ne_of_mem_configCandidates h.mem hplace)
  have hlocate : env.locateConfig (t.without (settingsLocation env.cwd name)) args.configPath =
      env.locateConfig t args.configPath :=
    locateConfig_congr fun path hpath ↦ by rw [isFile, isFile, hpaths path hpath]
  have hcompleted : (args.completed s).configPath = args.configPath := rfl
  rw [readInputs, readInputs, h.load, h.load_without, hcompleted, hlocate]
  rcases hpath : env.locateConfig t args.configPath with f | path
  · rfl
  · have hread : readConfig (t.without (settingsLocation env.cwd name)) env.cwd path =
        readConfig t env.cwd path := by
      rw [readConfig, readConfig, hpaths path (locateConfig_eq_ok hpath)]
    simp only [bind, Except.bind, pure, Except.pure, Option.getD_none, Option.getD_some,
      merge_completed, hread]

end

/-! ## Performing without the settings file

Of the path of an artifact the user chooses the output directory. Where this is out of the way of
the settings file, all artifacts are, for the components that they add have other names. -/

/-- **Steps are performed alike without what their artifacts avoid.** -/
theorem performAll_without {dryRun : Bool} {root : String} {steps : List Step}
    (h : ∀ a ∈ steps.flatMap Step.artifacts, Avoids loc (startOf cwd (Path.join root a.path))
      (Path.components (Path.join root a.path))) :
    Step.performAll dryRun cwd root (t.without loc) steps =
      (Step.performAll dryRun cwd root t steps).without loc := by
  induction steps generalizing t with
  | nil => rfl
  | cons step steps ih =>
    rw [List.flatMap_cons, List.forall_mem_append] at h
    obtain ⟨hstep, hsteps⟩ := h
    cases step with
    | say lines =>
      rw [Step.performAll, Step.performAll, ih hsteps]
      rfl
    | emit batch =>
      rw [Step.artifacts] at hstep
      rw [Step.performAll, Step.performAll]
      split
      · rw [ih hsteps]
        rfl
      · rw [writeBatch_without hstep]
        rcases t.writeBatch cwd root batch with ⟨u, cause | paths⟩
        · rfl
        · dsimp only
          rw [ih hsteps]
          rfl

theorem exists_address_of_mem_plan {settings : RunSettings} {config : Json} {a : Artifact}
    (ha : a ∈ (Plan.ofConfig args env settings config).steps.flatMap Step.artifacts) :
    ∃ b : Address, a.path = b.path := by
  obtain ⟨plugins, hplugins, -⟩ := exists_plugins (extract config settings.options)
    settings.options.defaultInterval
  rw [Plan.ofConfig] at ha
  split at ha
  · contradiction
  · next m ms hsome =>
    rw [← hsome, (artifacts_ofModules args env hplugins).2] at ha
    exact exists_address hplugins ((emitted_sublist _ _ _).subset ha)

theorem avoids_of_address (hmem : name ∈ Settings.candidates) {root : String} (b : Address)
    (h : Avoids (settingsLocation cwd name) (startOf cwd root) (Path.components root)) :
    Avoids (settingsLocation cwd name) (startOf cwd (Path.join root b.path))
      (Path.components (Path.join root b.path)) := by
  refine h.join (leadsDown_path b) fun c hc ↦ ?_
  rw [b.components_path] at hc
  exact getLast?_settingsLocation_ne hmem (b.notMem_settingsNames c hc)

/-- **A run takes from the settings file what it states, and nothing else.** -/
theorem run_without (h : OnlySettings t env.cwd name s)
    (hconfig : ∀ path, args.configPath = some path →
      destination env.cwd path ≠ settingsLocation env.cwd name)
    (houtput : Avoids (settingsLocation env.cwd name)
      (startOf env.cwd (RunSettings.merge args s).outputDir)
      (Path.components (RunSettings.merge args s).outputDir)) :
    run (args.completed s) env (t.without (settingsLocation env.cwd name)) =
      (run args env t).without (settingsLocation env.cwd name) := by
  have hread := readInputs_without h hconfig
  rcases hinputs : readInputs args env t with f | inputs
  · rw [run, run, hread, hinputs]
    rfl
  rcases hparsed : inputs.config with f | config
  · rw [run, run, hread, hinputs]
    simp only [hparsed]
    rfl
  have hsettings : inputs.settings = RunSettings.merge args s := by
    obtain ⟨file, path, hload, -, rfl⟩ := readInputs_eq_ok hinputs
    obtain rfl : some s = file := Except.ok.inj (h.load.symm.trans hload)
    rfl
  have hplan : Plan.ofConfig (args.completed s) env inputs.settings config =
      Plan.ofConfig args env inputs.settings config := rfl
  have hperform : Step.performAll args.dryRun env.cwd inputs.settings.outputDir
      (t.without (settingsLocation env.cwd name))
        (Plan.ofConfig args env inputs.settings config).steps =
      (Step.performAll args.dryRun env.cwd inputs.settings.outputDir t
        (Plan.ofConfig args env inputs.settings config).steps).without
          (settingsLocation env.cwd name) := by
    refine performAll_without fun a ha ↦ ?_
    obtain ⟨b, hb⟩ := exists_address_of_mem_plan ha
    rw [hb, hsettings]
    exact avoids_of_address h.mem b houtput
  have hdry : (args.completed s).dryRun = args.dryRun := rfl
  rw [run, run, hread, hinputs]
  simp only [hparsed, hplan, hdry, Plan.perform, hperform]
  rfl

/-- **A settings file and the command line are interchangeable.** If there is one settings file, and
neither the stated configuration nor the output directory has to do with it, then a run does what a
run without the file does whose arguments are completed by what the file states. If the arguments
leave nothing open, all settings that the file can state lead to the same run. -/
theorem settings_file_as_arguments (h : OnlySettings t env.cwd name s)
    (hconfig : ∀ path, args.configPath = some path →
      destination env.cwd path ≠ settingsLocation env.cwd name)
    (houtput : Avoids (settingsLocation env.cwd name)
      (startOf env.cwd (RunSettings.merge args s).outputDir)
      (Path.components (RunSettings.merge args s).outputDir)) :
    run (args.completed s) env (t.without (settingsLocation env.cwd name)) =
        (run args env t).without (settingsLocation env.cwd name) ∧
      (args.IsComplete → ∀ text s', Settings.parse text = .ok s' →
        (run args env (t.set (settingsLocation env.cwd name) (.file (.text text)))).without
            (settingsLocation env.cwd name) =
          (run args env t).without (settingsLocation env.cwd name)) := by
  have hrun := run_without h hconfig houtput
  refine ⟨hrun, fun hcomplete text s' hparse ↦ ?_⟩
  -- Either run is the one without the file, for which complete arguments stay as they are.
  have hdir : (RunSettings.merge args s').outputDir = (RunSettings.merge args s).outputDir := by
    rw [RunSettings.merge, RunSettings.merge, Option.or_of_isSome hcomplete.outputDir,
      Option.or_of_isSome hcomplete.outputDir]
  have hrun' := run_without (h.set hparse) hconfig (hdir ▸ houtput)
  rw [hcomplete.completed_eq, without_set_self] at hrun'
  rw [hcomplete.completed_eq] at hrun
  exact hrun'.symm.trans hrun

theorem parse_eq_ok {text : String}
    (h : (Toml.parse text.toList >>= fun members ↦ members.foldlM Settings.add? {}) = some s) :
    Settings.parse text = .ok s := by
  rw [Settings.parse, h]

/-- A settings file that states where to write, and what. -/
def settledText : String :=
  "output_dir = \"out\"\nmode = \"both\""

def settledSettings : Settings where
  outputDir := some "out"
  mode := some .both

/-- The tree of a configuration with one module, and with a settings file. -/
def settledTree : FileTree :=
  clockTree.set ["home", "wayconv.toml"] (.file (.text settledText))

/-- Arguments that leave nothing open. -/
def settledArguments : Arguments :=
  { clockArguments with defaultInterval := some 5, signalPollInterval := some 0 }

/-- Where the file states the directory and the mode, so can the arguments; and where they do, the
file may as well ask for plugins. -/
theorem settings_file_as_arguments_clock :
    OnlySettings settledTree "/home" "wayconv.toml" settledSettings ∧
      run clockArguments clockEnvironment clockTree =
        (run { configPath := some "bar.json" } clockEnvironment settledTree).without
          ["home", "wayconv.toml"] ∧
      (run settledArguments clockEnvironment (settledTree.set ["home", "wayconv.toml"]
          (.file (.text "mode = \"plugins\"")))).without ["home", "wayconv.toml"] =
        (run settledArguments clockEnvironment settledTree).without ["home", "wayconv.toml"] := by
  have hstated : settledTree.file? "/home" (Path.join "/home" "wayconv.toml") =
      some (.text settledText) := by decide +kernel
  have honly : OnlySettings settledTree clockEnvironment.cwd "wayconv.toml" settledSettings :=
    ⟨by decide, ⟨settledText, hstated, parse_eq_ok (by decide +kernel)⟩, by decide +kernel⟩
  have hloc : settingsLocation clockEnvironment.cwd "wayconv.toml" = ["home", "wayconv.toml"] := by
    decide +kernel
  have hwithout : settledTree.without ["home", "wayconv.toml"] = clockTree := by decide +kernel
  have hplugins : Settings.parse "mode = \"plugins\"" = .ok { mode := some .plugins } :=
    parse_eq_ok (by decide +kernel)
  have hconfig : ∀ path, some "bar.json" = some path → destination clockEnvironment.cwd path ≠
      settingsLocation clockEnvironment.cwd "wayconv.toml" := by
    rintro path ⟨⟩
    decide +kernel
  have houtput : Avoids (settingsLocation clockEnvironment.cwd "wayconv.toml")
      (startOf clockEnvironment.cwd "out") (Path.components "out") := by decide +kernel
  have hopen := @settings_file_as_arguments { configPath := some "bar.json" } clockEnvironment
    settledTree "wayconv.toml" settledSettings honly hconfig houtput
  have hcomplete := @settings_file_as_arguments settledArguments clockEnvironment settledTree
    "wayconv.toml" settledSettings honly hconfig houtput
  rw [hloc] at hopen hcomplete
  rw [hwithout] at hopen
  exact ⟨honly, hopen.1, hcomplete.2 ⟨rfl, rfl, rfl, rfl⟩ _ _ hplugins⟩

end BarBridge
