import BarBridge.Proofs.CommandLine.FinalTree
import BarBridge.Proofs.Files.Stopping

/-!
# The course of a run

A run reads everything it needs before it writes anything, and there are not many ways it can go
from there. `course` lists them, and is the only place where a run is taken apart: something could
not be read, there was nothing to convert, or there were modules. In the last case the plan is
performed, and the plan has no failure of its own, because a plugin can be made of every module.

Two things follow. A failure is either one of reading, and then the tree is as it was, or one of
writing, and then there is an artifact that could not be written (`run_fails_reading_or_writing`).
And no run ends because of a template. A document cannot fail to be written out either, which is
why there is no such failure.

A file that cannot be read and one that cannot be written may end a run with the same words. So the
failures of reading are told from those of writing by what a run has read (`Unread`), not by how
they look.
-/

namespace BarBridge

open FileTree

variable {args : Arguments} {env : Environment} {t : FileTree} {inputs : Inputs} {config : Json}
  {plugins : List Plugin} {f : Failure}

/-! ## Reading

What a run has found is said by `Unread`, `Reads` and `Converts`, without a word on what it prints
or whether it is a dry run. So two command lines that read the same can be compared through them. -/

/-- What keeps a run from reading everything. -/
inductive Unread (args : Arguments) (env : Environment) (t : FileTree) (f : Failure) : Prop where
  | inputs (hread : readInputs args env t = .error f)
  | config {inputs : Inputs} (hread : readInputs args env t = .ok inputs)
      (hconfig : inputs.config = .error f)

/-- Everything has been read, and this is the configuration. -/
structure Reads (args : Arguments) (env : Environment) (t : FileTree) (inputs : Inputs)
    (config : Json) : Prop where
  read : readInputs args env t = .ok inputs
  parsed : inputs.config = .ok config

/-- A configuration with modules has been read, and these are their plugins. -/
structure Converts (args : Arguments) (env : Environment) (t : FileTree) (inputs : Inputs)
    (config : Json) (plugins : List Plugin) : Prop extends Reads args env t inputs config where
  nonempty : extract config inputs.settings.options ≠ []
  made : (extract config inputs.settings.options).mapM
    (Plugin.ofModule · inputs.settings.options.defaultInterval) = .ok plugins

theorem readInputs_eq_error (h : readInputs args env t = .error f) :
    Settings.load t env.cwd = .error f ∨ env.locateConfig t args.configPath = .error f := by
  rw [readInputs] at h
  cases hload : Settings.load t env.cwd with
  | error f' =>
    rw [hload] at h
    exact .inl (congrArg _ (Except.error.inj h))
  | ok file =>
    cases hlocate : env.locateConfig t args.configPath with
    | error f' =>
      rw [hload, hlocate] at h
      exact .inr (congrArg _ (Except.error.inj h))
    | ok path =>
      rw [hload, hlocate] at h
      contradiction

theorem readInputs_eq_ok (h : readInputs args env t = .ok inputs) :
    ∃ file path, Settings.load t env.cwd = .ok file ∧
      env.locateConfig t args.configPath = .ok path ∧
      inputs = ⟨RunSettings.merge args (file.getD {}), path, readConfig t env.cwd path⟩ := by
  rw [readInputs] at h
  cases hload : Settings.load t env.cwd with
  | error f' =>
    rw [hload] at h
    contradiction
  | ok file =>
    cases hlocate : env.locateConfig t args.configPath with
    | error f' =>
      rw [hload, hlocate] at h
      contradiction
    | ok path =>
      rw [hload, hlocate] at h
      exact ⟨file, path, rfl, rfl, (Except.ok.inj h).symm⟩

theorem Reads.unique {inputs' : Inputs} {config' : Json} (h : Reads args env t inputs config)
    (h' : Reads args env t inputs' config') : inputs' = inputs ∧ config' = config := by
  obtain rfl : inputs' = inputs := Except.ok.inj (h'.read.symm.trans h.read)
  exact ⟨rfl, Except.ok.inj (h'.parsed.symm.trans h.parsed)⟩

theorem Converts.writes (h : Converts args env t inputs config plugins)
    (hdry : args.dryRun = false) : Writes args env t inputs config plugins :=
  ⟨hdry, h.read, h.parsed, h.nonempty, h.made⟩

theorem Reads.exists_converts (h : Reads args env t inputs config)
    (hne : extract config inputs.settings.options ≠ []) :
    ∃ plugins, Converts args env t inputs config plugins := by
  obtain ⟨plugins, hplugins, -⟩ := exists_plugins (extract config inputs.settings.options)
    inputs.settings.options.defaultInterval
  exact ⟨plugins, h, hne, hplugins⟩

/-! ## The courses -/

/-- The ways a run can go. -/
inductive Course (args : Arguments) (env : Environment) (t : FileTree) : Prop where
  | unread {f : Failure} (h : Unread args env t f)
  | nothing {inputs : Inputs} {config : Json} (h : Reads args env t inputs config)
      (hnone : extract config inputs.settings.options = [])
  | converts {inputs : Inputs} {config : Json} {plugins : List Plugin}
      (h : Converts args env t inputs config plugins)

/-- **The course of a run.** Plugins can be made of all modules, so nothing else can happen. -/
theorem course (args : Arguments) (env : Environment) (t : FileTree) : Course args env t := by
  cases hread : readInputs args env t with
  | error f => exact .unread (.inputs hread)
  | ok inputs =>
    cases hconfig : inputs.config with
    | error f => exact .unread (.config hread hconfig)
    | ok config =>
      by_cases hnone : extract config inputs.settings.options = []
      · exact .nothing ⟨hread, hconfig⟩ hnone
      · obtain ⟨plugins, hconverts⟩ := Reads.exists_converts ⟨hread, hconfig⟩ hnone
        exact .converts hconverts

theorem Unread.run_eq (h : Unread args env t f) :
    ∃ lines, (∀ l ∈ lines, ∃ path, l = readingLine path) ∧ run args env t = ⟨lines, t, some f⟩ := by
  cases h with
  | inputs hread => exact ⟨[], List.forall_mem_nil _, by rw [run, hread]⟩
  | @config inputs hread hconfig =>
    refine ⟨[readingLine inputs.configPath], List.forall_mem_singleton.mpr ⟨_, rfl⟩, ?_⟩
    rw [run, hread]
    simp only [hconfig]

theorem Reads.run_eq (h : Reads args env t inputs config)
    (hnone : extract config inputs.settings.options = []) :
    run args env t = ⟨[readingLine inputs.configPath,
      "No custom modules found in Waybar config."], t, none⟩ := by
  rw [run, h.read]
  simp only [h.parsed, Plan.ofConfig, hnone]
  rfl

theorem Converts.run_eq (h : Converts args env t inputs config plugins) :
    let o := Step.performAll args.dryRun env.cwd inputs.settings.outputDir t
      (Plan.ofModules args env inputs.settings (extract config inputs.settings.options)).steps
    run args env t = ⟨readingLine inputs.configPath :: o.lines, o.tree, o.failure⟩ := by
  obtain ⟨m, ms, hsome⟩ := List.exists_cons_of_ne_nil h.nonempty
  rw [run, h.read]
  simp only [h.parsed, Plan.ofConfig, hsome]
  rw [← hsome, Plan.perform, (artifacts_ofModules args env h.made).1]
  simp only [Option.or_none]

/-! ## Failures

The failures of reading are made in three places, and none of them has a template at hand. A dry run
has no others: it performs all of its steps, since it asks nothing of the file system. -/

theorem ne_template_of_load (h : Settings.load t env.cwd = .error f) (fault : Template.Fault) :
    f ≠ .template fault := by
  rw [Settings.load] at h
  split at h
  · exact nomatch h
  split at h
  · next text _ =>
    rw [Settings.parse] at h
    split at h
    · exact nomatch h
    · rw [← Except.error.inj h]
      exact nofun
  · rw [← Except.error.inj h]
    exact nofun

theorem ne_template_of_locateConfig {stated : Option String}
    (h : env.locateConfig t stated = .error f) (fault : Template.Fault) : f ≠ .template fault := by
  unfold Environment.locateConfig at h
  split at h
  · split at h
    · exact nomatch h
    · rw [← Except.error.inj h]
      exact nofun
  · split at h
    · exact nomatch h
    · rw [← Except.error.inj h]
      exact nofun

theorem ne_template_of_readConfig {path : String} (h : readConfig t env.cwd path = .error f)
    (fault : Template.Fault) : f ≠ .template fault := by
  rw [readConfig] at h
  split at h
  · rw [← Except.error.inj h]
    exact nofun
  split at h
  · rw [← Except.error.inj h]
    exact nofun
  · next text _ =>
    cases hparse : Jsonc.parse text.toList with
    | error fault' =>
      rw [hparse] at h
      rw [← Except.error.inj h]
      exact nofun
    | ok config =>
      rw [hparse] at h
      exact nomatch h

theorem Unread.ne_template (h : Unread args env t f) (fault : Template.Fault) :
    f ≠ .template fault := by
  cases h with
  | inputs hread =>
    rcases readInputs_eq_error hread with hload | hlocate
    · exact ne_template_of_load hload fault
    · exact ne_template_of_locateConfig hlocate fault
  | config hread hconfig =>
    obtain ⟨file, path, -, -, rfl⟩ := readInputs_eq_ok hread
    exact ne_template_of_readConfig hconfig fault

theorem performAll_true (cwd root : String) (t : FileTree) (steps : List Step) :
    (Step.performAll true cwd root t steps).tree = t ∧
      (Step.performAll true cwd root t steps).failure = none := by
  induction steps with
  | nil => exact ⟨rfl, rfl⟩
  | cons step steps ih =>
    cases step with
    | say lines => exact ih
    | emit batch => exact ih

theorem Converts.run_dry (h : Converts args env t inputs config plugins)
    (hdry : args.dryRun = true) : (run args env t).tree = t ∧ (run args env t).failure = none := by
  rw [h.run_eq, hdry]
  exact performAll_true _ _ t _

/-- How a run ends that could not write an artifact: those before it have been written, and the
attempt on it is the last thing that has been done to the tree. -/
def Unwritten (args : Arguments) (env : Environment) (t : FileTree) (cause : IoCause) : Prop :=
  args.dryRun = false ∧ ∃ inputs config plugins, Converts args env t inputs config plugins ∧
    ∃ written a rest u paths,
      emitted inputs.settings (extract config inputs.settings.options) plugins =
        written ++ a :: rest ∧
      t.writeBatch env.cwd inputs.settings.outputDir written = (u, .ok paths) ∧
      u.writeFile env.cwd (Path.join inputs.settings.outputDir a.path) a.contents =
        ((run args env t).tree, .error cause)

theorem Converts.unwritten (h : Converts args env t inputs config plugins)
    (hfailure : (run args env t).failure = some f) :
    ∃ cause, f = .io cause ∧ Unwritten args env t cause := by
  cases hdry : args.dryRun with
  | true =>
    exact nomatch (h.run_dry hdry).2.symm.trans hfailure
  | false =>
    have hrun := (h.writes hdry).run_eq
    rcases hbatch : t.writeBatch env.cwd inputs.settings.outputDir
        (emitted inputs.settings (extract config inputs.settings.options) plugins) with
      ⟨t', cause | paths⟩
    · rw [hbatch] at hrun
      obtain ⟨htree, hcause⟩ := Prod.mk.inj hrun
      refine ⟨cause, Option.some.inj (hfailure.symm.trans hcause), hdry, _, _, _, h, ?_⟩
      obtain ⟨written, a, rest, u, paths, hsplit, hwritten, hfails⟩ :=
        exists_of_writeBatch_error hbatch
      exact ⟨written, a, rest, u, paths, hsplit, hwritten, htree ▸ hfails⟩
    · rw [hbatch] at hrun
      exact nomatch (Prod.mk.inj hrun).2.symm.trans hfailure

/-- **A run fails in reading or in writing.** A failure of reading leaves the tree as it was, and so
does a configuration without modules, which is no failure. Once there is something to write, all
that can happen is that the file system refuses an artifact. In particular a failure that is none
of the file system's leaves the tree as it was, and none is that of a template. -/
theorem run_fails_reading_or_writing (args : Arguments) (env : Environment) (t : FileTree) :
    (∀ f, Unread args env t f →
      (run args env t).failure = some f ∧ (run args env t).tree = t) ∧
    (∀ inputs config, Reads args env t inputs config →
      extract config inputs.settings.options = [] →
        (run args env t).failure = none ∧ (run args env t).tree = t) ∧
    (∀ f, (run args env t).failure = some f →
      Unread args env t f ∧ (run args env t).tree = t ∨
        ∃ cause, f = .io cause ∧ Unwritten args env t cause) ∧
    ∀ f, (run args env t).failure = some f →
      ((∀ cause, f ≠ .io cause) → (run args env t).tree = t) ∧ ∀ fault, f ≠ .template fault := by
  have hunread : ∀ f, Unread args env t f →
      (run args env t).failure = some f ∧ (run args env t).tree = t := by
    intro f h
    obtain ⟨lines, -, hrun⟩ := h.run_eq
    rw [hrun]
    exact ⟨rfl, rfl⟩
  have hfails : ∀ f, (run args env t).failure = some f →
      Unread args env t f ∧ (run args env t).tree = t ∨
        ∃ cause, f = .io cause ∧ Unwritten args env t cause := by
    intro f hfailure
    cases course args env t with
    | unread h =>
      obtain ⟨hsome, htree⟩ := hunread _ h
      obtain rfl := Option.some.inj (hsome.symm.trans hfailure)
      exact .inl ⟨h, htree⟩
    | nothing h hnone =>
      rw [h.run_eq hnone] at hfailure
      exact nomatch hfailure
    | converts h => exact .inr (h.unwritten hfailure)
  refine ⟨hunread, fun inputs config h hnone ↦ ?_, hfails, fun f hfailure ↦ ?_⟩
  · rw [h.run_eq hnone]
    exact ⟨rfl, rfl⟩
  · rcases hfails f hfailure with ⟨h, htree⟩ | ⟨cause, rfl, -⟩
    · exact ⟨fun _ ↦ htree, h.ne_template⟩
    · exact ⟨fun hcause ↦ absurd rfl (hcause cause), nofun⟩

/-- A configuration that is not there ends the run before it writes; an output directory that is a
file ends it in writing. -/
theorem run_fails_clock :
    let absent := { clockArguments with configPath := some "absent.json" }
    let blocked := { clockArguments with outputDir := some "bar.json", mode := some .widgets }
    (run absent clockEnvironment clockTree).failure = some (.configMissing "absent.json") ∧
      (run absent clockEnvironment clockTree).tree = clockTree ∧
      ∃ cause, (run blocked clockEnvironment clockTree).failure = some (.io cause) ∧
        Unwritten blocked clockEnvironment clockTree cause := by
  intro absent blocked
  have habsent : Unread absent clockEnvironment clockTree (.configMissing "absent.json") :=
    .inputs rfl
  have hblocked : (run blocked clockEnvironment clockTree).failure.isSome = true := by
    decide +kernel
  obtain ⟨f, hf⟩ := Option.isSome_iff_exists.mp hblocked
  obtain ⟨hunread, -⟩ := run_fails_reading_or_writing absent clockEnvironment clockTree
  obtain ⟨-, -, hfails, -⟩ := run_fails_reading_or_writing blocked clockEnvironment clockTree
  obtain ⟨hfailure, htree⟩ := hunread _ habsent
  refine ⟨hfailure, htree, ?_⟩
  rcases hfails f hf with ⟨hread | ⟨hread, hconfig⟩, -⟩ | ⟨cause, rfl, hunwritten⟩
  · exact nomatch hread
  · obtain rfl := Except.ok.inj hread
    exact nomatch hconfig
  · exact ⟨cause, hf, hunwritten⟩

end BarBridge
