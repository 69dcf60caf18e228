import BarBridge.CommandLine.Run
import BarBridge.Proofs.Artifact.Addresses
import BarBridge.Proofs.Files.Writing

/-!
# The tree a run leaves

A run writes its artifacts in several batches, one for the widgets and one for each plugin. For the
tree it is as if there were one batch, for what is said in between writes nothing
(`performAll_eq`). And all artifacts of a configuration lead down from the output directory and stay
out of each other's way, whatever its modules are called (`leadsDown_and_apart`). So what is known
of a batch holds of a run.

## Modes

The artifacts of both modes are those of one mode followed by those of the other. The two modes can
therefore be compared without asking in which order anything is written: each of the three runs
gains its own artifacts in the tree that has the output directory (`Writes.changes_both`).

## Success

A run can fail for many reasons that lie in the tree, and nothing is claimed of such a run. What is
shown of success is that it depends on the paths that are written to and not on the contents
(`Writes.failure_eq_none_of_path`).
-/

namespace BarBridge

open FileTree

/-! ## A run as one batch

Between two batches a run only says something, and a batch that fails ends it, as an artifact that
cannot be written ends a batch. So the batches can be put behind one another, and a mode says which
of the two lists of artifacts they make up. -/

/-- The artifacts of a step. -/
def Step.artifacts : Step → List Artifact
  | say _ => []
  | emit batch => batch

/-- How writing a batch ends a run: with the tree, and with a failure if there is one. -/
def ending : FileTree × Except IoCause (List String) → FileTree × Option Failure
  | (t, .ok _) => (t, none)
  | (t, .error cause) => (t, some (.io cause))

/-- **Steps are performed as one batch**, as far as the tree and the failure are concerned. -/
theorem performAll_eq (t : FileTree) (cwd root : String) (steps : List Step) :
    ((Step.performAll false cwd root t steps).tree,
        (Step.performAll false cwd root t steps).failure) =
      ending (t.writeBatch cwd root (steps.flatMap Step.artifacts)) := by
  induction steps generalizing t with
  | nil => rfl
  | cons step steps ih =>
    cases step with
    | say lines => exact ih t
    | emit batch =>
      rw [List.flatMap_cons, Step.artifacts, writeBatch_append, Step.performAll]
      simp only [Bool.false_eq_true, if_false]
      rcases t.writeBatch cwd root batch with ⟨u, cause | paths⟩
      · rfl
      · dsimp only
        rw [ih u]
        rcases u.writeBatch cwd root (steps.flatMap Step.artifacts) with ⟨v, cause | paths'⟩ <;> rfl

/-- What a run writes for modules and their plugins. -/
def emitted (settings : RunSettings) (modules : List CustomModule) (plugins : List Plugin) :
    List Artifact :=
  (if settings.mode.includesWidgets then
      ConvertedWidget.files (convertWidgets settings.options modules)
    else []) ++
  if settings.mode.includesPlugins then plugins.flatMap (·.files) else []

theorem emitted_sublist (settings : RunSettings) (modules : List CustomModule)
    (plugins : List Plugin) :
    (emitted settings modules plugins).Sublist
      (ConvertedWidget.files (convertWidgets settings.options modules) ++
        plugins.flatMap (·.files)) := by
  refine List.Sublist.append ?_ ?_
  · split
    · exact .refl _
    · exact List.nil_sublist _
  · split
    · exact .refl _
    · exact List.nil_sublist _

section

variable (settings : RunSettings) (modules : List CustomModule) (plugins : List Plugin)

theorem emitted_widgets : emitted { settings with mode := .widgets } modules plugins =
    ConvertedWidget.files (convertWidgets settings.options modules) :=
  List.append_nil _

theorem emitted_plugins :
    emitted { settings with mode := .plugins } modules plugins = plugins.flatMap (·.files) := rfl

theorem emitted_both (h : settings.mode = .both) : emitted settings modules plugins =
    ConvertedWidget.files (convertWidgets settings.options modules) ++
      plugins.flatMap (·.files) := by
  rw [emitted, h]
  rfl

end

theorem map_eq_of_mapM_eq_ok {α β ε : Type} {f : α → Except ε β} {xs : List α} {ys : List β}
    (h : xs.mapM f = .ok ys) : xs.map f = ys.map .ok := by
  induction xs generalizing ys with
  | nil =>
    obtain rfl : [] = ys := Except.ok.inj h
    rfl
  | cons x xs ih =>
    rw [List.mapM_cons] at h
    cases hx : f x with
    | error e =>
      rw [hx] at h
      exact nomatch h
    | ok y =>
      cases hxs : xs.mapM f with
      | error e =>
        rw [hx, hxs] at h
        exact nomatch h
      | ok rest =>
        rw [hx, hxs] at h
        obtain rfl : y :: rest = ys := Except.ok.inj h
        rw [List.map_cons, List.map_cons, hx, ih hxs]

theorem batches_map_ok (plugins : List Plugin) :
    Plan.batches (plugins.map .ok) = ⟨plugins.map fun p ↦ .emit p.files, none⟩ := by
  induction plugins with
  | nil => rfl
  | cons p plugins ih =>
    rw [List.map_cons, Plan.batches, ih]
    rfl

theorem artifacts_map_emit (plugins : List Plugin) :
    (plugins.map fun p ↦ Step.emit p.files).flatMap Step.artifacts = plugins.flatMap (·.files) := by
  rw [List.flatMap_map]
  rfl

theorem artifacts_ofModules (args : Arguments) (env : Environment) {settings : RunSettings}
    {modules : List CustomModule} {plugins : List Plugin}
    (h : modules.mapM (Plugin.ofModule · settings.options.defaultInterval) = .ok plugins) :
    (Plan.ofModules args env settings modules).failure = none ∧
      (Plan.ofModules args env settings modules).steps.flatMap Step.artifacts =
        emitted settings modules plugins := by
  rw [Plan.ofModules, emitted, Plan.pluginBatches, map_eq_of_mapM_eq_ok h, batches_map_ok]
  have hreport : ((if args.verbose then [Plan.report settings modules] else []) ++
      [Plan.summary args env settings]).flatMap Step.artifacts = [] := by
    cases args.verbose <;> rfl
  cases settings.mode <;>
    simp [ArtifactMode.includesWidgets, ArtifactMode.includesPlugins, hreport, Step.artifacts,
      Plan.widgetSteps, Plan.headline, artifacts_map_emit]

/-- A run that writes: it is no dry run and reads a configuration with modules, whose plugins are
the given ones. -/
structure Writes (args : Arguments) (env : Environment) (t : FileTree) (inputs : Inputs)
    (config : Json) (plugins : List Plugin) : Prop where
  dry : args.dryRun = false
  read : readInputs args env t = .ok inputs
  parsed : inputs.config = .ok config
  nonempty : extract config inputs.settings.options ≠ []
  made : (extract config inputs.settings.options).mapM
    (Plugin.ofModule · inputs.settings.options.defaultInterval) = .ok plugins

variable {args : Arguments} {env : Environment} {t : FileTree} {inputs : Inputs} {config : Json}
  {plugins : List Plugin}

/-- **A run that writes does so as one batch.** -/
theorem Writes.run_eq (h : Writes args env t inputs config plugins) :
    ((run args env t).tree, (run args env t).failure) =
      ending (t.writeBatch env.cwd inputs.settings.outputDir
        (emitted inputs.settings (extract config inputs.settings.options) plugins)) := by
  obtain ⟨hfailure, hartifacts⟩ := artifacts_ofModules args env h.made
  have hplan : Plan.ofConfig args env inputs.settings config =
      Plan.ofModules args env inputs.settings (extract config inputs.settings.options) := by
    rw [Plan.ofConfig]
    split
    · next hnone => exact absurd hnone h.nonempty
    · next hsome => rw [hsome]
  rw [run, h.read]
  simp only [h.parsed, Plan.perform, hplan, h.dry, hfailure, Option.or_none]
  rw [performAll_eq, hartifacts]

theorem Writes.exists_writeBatch_iff (h : Writes args env t inputs config plugins)
    {t' : FileTree} :
    (run args env t).tree = t' ∧ (run args env t).failure = none ↔
      ∃ paths, t.writeBatch env.cwd inputs.settings.outputDir
        (emitted inputs.settings (extract config inputs.settings.options) plugins) =
          (t', .ok paths) := by
  have hrun := h.run_eq
  generalize emitted inputs.settings (extract config inputs.settings.options) plugins = artifacts
    at hrun ⊢
  obtain ⟨htree, hfailure⟩ := Prod.mk.inj hrun
  rw [htree, hfailure]
  rcases t.writeBatch env.cwd inputs.settings.outputDir artifacts with ⟨u, cause | paths⟩
  · simp
  · simp

theorem Writes.withMode (h : Writes args env t inputs config plugins) (mode : ArtifactMode) :
    Writes { args with mode := some mode } env t
      { inputs with settings := { inputs.settings with mode := mode } } config plugins where
  dry := h.dry
  read := by
    have hinputs := h.read
    rw [readInputs] at hinputs ⊢
    cases hfile : Settings.load t env.cwd with
    | error f =>
      rw [hfile] at hinputs
      exact nomatch hinputs
    | ok file =>
      cases hpath : env.locateConfig t args.configPath with
      | error f =>
        rw [hfile, hpath] at hinputs
        exact nomatch hinputs
      | ok path =>
        rw [hfile, hpath] at hinputs
        obtain rfl := Except.ok.inj hinputs
        rfl
  parsed := h.parsed
  nonempty := h.nonempty
  made := h.made

/-! ## The artifacts of a run

The contents of artifacts depend on all that has been read, their paths on the stems of the modules
alone. Whatever is needed of the paths is therefore read off the addresses, for all modes at once. -/

theorem leadsDown_path (a : Address) : LeadsDown a.path where
  relative := a.isAbsolute_path
  ne_nil := by
    rw [a.components_path]
    cases a <;> exact List.cons_ne_nil _ _
  dots := by
    rw [a.components_path]
    exact a.dots_notMem_components

theorem exists_address_of_mem {artifacts : List Artifact} {addresses : List Address}
    (hpaths : artifacts.map (·.path) = addresses.map (·.path)) {a : Artifact} (ha : a ∈ artifacts) :
    ∃ b ∈ addresses, a.path = b.path := by
  have hpath := List.mem_map_of_mem (f := Artifact.path) ha
  rw [hpaths] at hpath
  obtain ⟨b, hb, hab⟩ := List.mem_map.mp hpath
  exact ⟨b, hb, hab.symm⟩

theorem exists_address {options : Options} (hplugins : (extract config options).mapM
      (Plugin.ofModule · options.defaultInterval) = .ok plugins) {a : Artifact}
    (ha : a ∈ ConvertedWidget.files (convertWidgets options (extract config options)) ++
      plugins.flatMap (·.files)) : ∃ b : Address, a.path = b.path := by
  obtain ⟨plugins', addresses, hplugins', hpaths, -⟩ :=
    exists_addresses config options options.defaultInterval
  obtain rfl : plugins' = plugins := Except.ok.inj (hplugins'.symm.trans hplugins)
  obtain ⟨b, -, hb⟩ := exists_address_of_mem hpaths ha
  exact ⟨b, hb⟩

/-- What all artifacts of a configuration have in common: they lead down, and do not get in each
other's way. -/
theorem leadsDown_and_apart {options : Options} (hplugins : (extract config options).mapM
      (Plugin.ofModule · options.defaultInterval) = .ok plugins) :
    let artifacts := ConvertedWidget.files (convertWidgets options (extract config options)) ++
      plugins.flatMap (·.files)
    (∀ a ∈ artifacts, LeadsDown a.path) ∧ artifacts.Pairwise Apart := by
  refine ⟨fun a ha ↦ ?_, ?_⟩
  · obtain ⟨b, hb⟩ := exists_address hplugins ha
    exact hb ▸ leadsDown_path b
  · obtain ⟨plugins', addresses, hplugins', hpaths, hnodup⟩ :=
      exists_addresses config options options.defaultInterval
    obtain rfl : plugins' = plugins := Except.ok.inj (hplugins'.symm.trans hplugins)
    have hpairwise := pairwise_path hnodup
    rw [← hpaths, List.pairwise_map] at hpairwise
    exact hpairwise

theorem path_plugins {modules : List CustomModule} {interval : UInt64}
    (h : modules.mapM (Plugin.ofModule · interval) = .ok plugins) :
    (plugins.flatMap (·.files)).map (·.path) =
      (pluginAddresses (stemsOf modules)).map (·.path) := by
  obtain ⟨plugins', hplugins, hpaths⟩ := exists_plugins modules interval
  obtain rfl : plugins' = plugins := Except.ok.inj (hplugins.symm.trans h)
  exact hpaths

theorem exists_deep_of_mem {artifacts : List Artifact} {addresses : List Address} {b : Address}
    (hpaths : artifacts.map (·.path) = addresses.map (·.path)) (hb : b ∈ addresses)
    (hdeep : b.components.dropLast ≠ []) :
    ∃ a ∈ artifacts, (Path.components a.path).dropLast ≠ [] := by
  have hpath := List.mem_map_of_mem (f := Address.path) hb
  rw [← hpaths] at hpath
  obtain ⟨a, ha, hab⟩ := List.mem_map.mp hpath
  exact ⟨a, ha, by rwa [hab, b.components_path]⟩

theorem exists_deep {settings : RunSettings} {modules : List CustomModule}
    (hmodules : modules ≠ [])
    (hplugins : modules.mapM (Plugin.ofModule · settings.options.defaultInterval) = .ok plugins) :
    ∃ a ∈ emitted settings modules plugins, (Path.components a.path).dropLast ≠ [] := by
  obtain ⟨m, modules, rfl⟩ := List.exists_cons_of_ne_nil hmodules
  by_cases hwidgets : settings.mode.includesWidgets = true
  · obtain ⟨warned, hpaths⟩ := path_files settings.options (m :: modules)
    obtain ⟨a, ha, hdeep⟩ := exists_deep_of_mem hpaths (b := .widget (.ofName m.name))
      (by simp [widgetAddresses, stemsOf]) (by simp [Address.components])
    refine ⟨a, List.mem_append_left _ ?_, hdeep⟩
    rw [if_pos hwidgets]
    exact ha
  · have hincludes : settings.mode.includesPlugins = true := by
      revert hwidgets
      cases settings.mode <;> decide
    obtain ⟨a, ha, hdeep⟩ := exists_deep_of_mem (path_plugins hplugins)
      (b := .plugin (.ofName m.name) .manifest) (by simp [pluginAddresses, stemsOf, PluginFile.all])
      (by simp [Address.components, PluginFile.components])
    refine ⟨a, List.mem_append_right _ ?_, hdeep⟩
    rw [if_pos hincludes]
    exact ha

/-! ## The tree afterwards

A run succeeds if the output directory can be made and every artifact can be written there. The
second is asked of the tree that has the directory and no artifact yet: since the artifacts keep out
of each other's way, writing one of them does not change the answer for another. -/

section

variable (h : Writes args env t inputs config plugins)

include h

theorem Writes.emitted_ne_nil :
    emitted inputs.settings (extract config inputs.settings.options) plugins ≠ [] := by
  obtain ⟨a, ha, -⟩ := exists_deep h.nonempty h.made
  exact List.ne_nil_of_mem ha

theorem Writes.exists_address {a : Artifact}
    (ha : a ∈ emitted inputs.settings (extract config inputs.settings.options) plugins) :
    ∃ b : Address, a.path = b.path :=
  BarBridge.exists_address h.made ((emitted_sublist _ _ _).subset ha)

theorem Writes.leadsDown :
    ∀ a ∈ emitted inputs.settings (extract config inputs.settings.options) plugins,
      LeadsDown a.path := by
  intro a ha
  exact (leadsDown_and_apart h.made).1 a ((emitted_sublist _ _ _).subset ha)

theorem Writes.apart :
    (emitted inputs.settings (extract config inputs.settings.options) plugins).Pairwise Apart :=
  (leadsDown_and_apart h.made).2.sublist (emitted_sublist _ _ _)

/-- **A run that succeeds** has made the output directory, found that it can write each artifact,
and written them all. -/
theorem Writes.exists_gains (hsuccess : (run args env t).failure = none) :
    ∃ u base, t.makeDirectories (startOf env.cwd inputs.settings.outputDir)
        (Path.components inputs.settings.outputDir) = (u, some base) ∧
      (∀ a ∈ emitted inputs.settings (extract config inputs.settings.options) plugins,
        u.Admits (Path.join inputs.settings.outputDir a.path) ∧
          u.Writable base (Path.components a.path)) ∧
      u.Gains base (emitted inputs.settings (extract config inputs.settings.options) plugins)
        (run args env t).tree := by
  obtain ⟨paths, hbatch⟩ := h.exists_writeBatch_iff.mp ⟨rfl, hsuccess⟩
  exact exists_gains_of_writeBatch h.emitted_ne_nil h.leadsDown h.apart hbatch

theorem Writes.failure_eq_none {u : FileTree} {base : Location}
    (hmake : t.makeDirectories (startOf env.cwd inputs.settings.outputDir)
      (Path.components inputs.settings.outputDir) = (u, some base))
    (hall : ∀ a ∈ emitted inputs.settings (extract config inputs.settings.options) plugins,
      u.Admits (Path.join inputs.settings.outputDir a.path) ∧
        u.Writable base (Path.components a.path)) :
    (run args env t).failure = none ∧
      u.Gains base (emitted inputs.settings (extract config inputs.settings.options) plugins)
        (run args env t).tree := by
  obtain ⟨t', paths, hbatch, hgains⟩ :=
    exists_writeBatch_of_makeDirectories hmake h.emitted_ne_nil h.leadsDown h.apart hall
  obtain ⟨htree, hfailure⟩ := h.exists_writeBatch_iff.mpr ⟨paths, hbatch⟩
  exact ⟨hfailure, htree ▸ hgains⟩

/-- Whether a run succeeds depends on the paths of its artifacts, not on their contents. -/
theorem Writes.failure_eq_none_of_path {artifacts : List Artifact}
    (hpaths : artifacts.map (·.path) =
      (emitted inputs.settings (extract config inputs.settings.options) plugins).map (·.path))
    (hbatch : (t.writeBatch env.cwd inputs.settings.outputDir artifacts).2.isOk = true) :
    (run args env t).failure = none := by
  have hne : artifacts ≠ [] := by
    rintro rfl
    exact h.emitted_ne_nil (List.map_eq_nil_iff.mp hpaths.symm)
  have hdown : ∀ p ∈ artifacts.map (·.path), LeadsDown p := by
    rw [hpaths, List.forall_mem_map]
    exact h.leadsDown
  have hapart : (artifacts.map (·.path)).Pairwise fun p q ↦
      ¬Path.components p <+: Path.components q ∧ ¬Path.components q <+: Path.components p := by
    rw [hpaths]
    exact List.pairwise_map.mpr h.apart
  rw [List.forall_mem_map] at hdown
  rw [List.pairwise_map] at hapart
  rcases hwritten : t.writeBatch env.cwd inputs.settings.outputDir artifacts with
    ⟨t', cause | paths⟩
  · rw [hwritten] at hbatch
    exact nomatch hbatch
  obtain ⟨u, base, hmake, hall, -⟩ := exists_gains_of_writeBatch hne hdown hapart hwritten
  rw [← List.forall_mem_map (f := Artifact.path) (P := fun p ↦
    u.Admits (Path.join inputs.settings.outputDir p) ∧ u.Writable base (Path.components p)),
    hpaths, List.forall_mem_map] at hall
  exact (h.failure_eq_none hmake hall).1

theorem Writes.file?_and_walk (hsuccess : (run args env t).failure = none) :
    ∃ u base, Grown t u ∧
      (∀ a ∈ emitted inputs.settings (extract config inputs.settings.options) plugins,
        u.Writable base (Path.components a.path)) ∧
      u.Gains base (emitted inputs.settings (extract config inputs.settings.options) plugins)
        (run args env t).tree ∧
      ∀ a ∈ emitted inputs.settings (extract config inputs.settings.options) plugins,
        (run args env t).tree.walk
            (startOf env.cwd (Path.join inputs.settings.outputDir a.path))
            (Path.components (Path.join inputs.settings.outputDir a.path)) =
          some (base ++ Path.components a.path) ∧
        (run args env t).tree.file? env.cwd (Path.join inputs.settings.outputDir a.path) =
          some (.text a.contents) := by
  obtain ⟨u, base, hmake, hall, hgains⟩ := h.exists_gains hsuccess
  have hwritable := fun a ha ↦ (hall a ha).2
  have hkeeps := hgains.keepsDirectories hwritable
  -- The way to an artifact that lies deeper begins at the output directory, so this is one.
  obtain ⟨deep, hmem, hdeep⟩ := exists_deep h.nonempty h.made
  have hbase := (hwritable deep hmem).passable.start hdeep
  refine ⟨u, base, grown_of_makeDirectories hmake, hwritable, hgains, fun a ha ↦ ?_⟩
  exact file?_of_gains hmake hgains hkeeps hbase ha (h.leadsDown a ha) (hall a ha).1

/-- **Both modes at once** succeed only if each does, and then change what each changes. -/
theorem Writes.changes_both (hmode : inputs.settings.mode = .both)
    (hsuccess : (run args env t).failure = none) :
    (run { args with mode := some .widgets } env t).failure = none ∧
      (run { args with mode := some .plugins } env t).failure = none ∧
      changes t (run args env t).tree =
        changes t (run { args with mode := some .widgets } env t).tree ∪
          changes t (run { args with mode := some .plugins } env t).tree := by
  obtain ⟨u, base, hmake, hall, hgains⟩ := h.exists_gains hsuccess
  rw [emitted_both _ _ _ hmode] at hall hgains
  have hwidgets := (h.withMode .widgets).failure_eq_none hmake
  have hplugins := (h.withMode .plugins).failure_eq_none hmake
  simp only [emitted_widgets] at hwidgets
  simp only [emitted_plugins] at hplugins
  obtain ⟨hwidgets, hgainsWidgets⟩ := hwidgets fun a ha ↦ hall a (List.mem_append_left _ ha)
  obtain ⟨hplugins, hgainsPlugins⟩ := hplugins fun a ha ↦ hall a (List.mem_append_right _ ha)
  exact ⟨hwidgets, hplugins, hgains.changes_append (grown_of_makeDirectories hmake) hgainsWidgets
    hgainsPlugins fun a ha ↦ (hall a ha).2⟩

end

/-- **What a run leaves.** If a run that is no dry run succeeds on a configuration with modules,
each artifact of its mode is found under its path with its contents. Every location is one of these,
or is as it was, or is a directory where there was nothing. And a run in both modes changes what
runs in the two modes change, which succeed as well. -/
theorem run_leaves (hdry : args.dryRun = false) (hread : readInputs args env t = .ok inputs)
    (hparsed : inputs.config = .ok config)
    (hnonempty : extract config inputs.settings.options ≠ [])
    (hsuccess : (run args env t).failure = none) :
    ∃ plugins, (extract config inputs.settings.options).mapM
        (Plugin.ofModule · inputs.settings.options.defaultInterval) = .ok plugins ∧
      let artifacts := emitted inputs.settings (extract config inputs.settings.options) plugins
      let place := fun a : Artifact ↦ Path.join inputs.settings.outputDir a.path
      let after := (run args env t).tree
      (∀ a ∈ artifacts, after.file? env.cwd (place a) = some (.text a.contents)) ∧
      (∀ loc, (∃ a ∈ artifacts,
          after.walk (startOf env.cwd (place a)) (Path.components (place a)) = some loc) ∨
        after.lookup? loc = t.lookup? loc ∨
        t.lookup? loc = none ∧ after.lookup? loc = some .directory) ∧
      (inputs.settings.mode = .both →
        (run { args with mode := some .widgets } env t).failure = none ∧
        (run { args with mode := some .plugins } env t).failure = none ∧
        changes t after =
          changes t (run { args with mode := some .widgets } env t).tree ∪
            changes t (run { args with mode := some .plugins } env t).tree) := by
  obtain ⟨plugins, hplugins, -⟩ := exists_plugins (extract config inputs.settings.options)
    inputs.settings.options.defaultInterval
  have h : Writes args env t inputs config plugins := ⟨hdry, hread, hparsed, hnonempty, hplugins⟩
  obtain ⟨u, base, hgrown, hwritable, hgains, hfound⟩ := h.file?_and_walk hsuccess
  refine ⟨plugins, hplugins, fun a ha ↦ (hfound a ha).2, fun loc ↦ ?_,
    fun hmode ↦ h.changes_both hmode hsuccess⟩
  rcases hgains.cases_of_grown hgrown hwritable loc with ⟨a, ha, rfl⟩ | hother
  · exact .inl ⟨a, ha, (hfound a ha).1⟩
  · exact .inr hother

/-! ## A run into a directory that is not empty -/

/-- A configuration with one module, in a working directory with an output directory that has an
artifact of an earlier run and a file that is none. -/
def clockTree : FileTree where
  entries := [
    (["home"], .directory),
    (["home", "bar.json"], .file (.text "\x7b\"custom/clock\": \x7b\"exec\": \"date\"\x7d\x7d")),
    (["home", "out"], .directory),
    (["home", "out", "custom_widgets.json"], .file (.text "old")),
    (["home", "out", "notes.txt"], .file (.text "kept"))]
  limits := .unbounded

/-- A command line that asks for both modes. -/
def clockArguments : Arguments where
  configPath := some "bar.json"
  outputDir := some "out"
  mode := some .both

def clockEnvironment : Environment := ⟨"/home", none, none⟩

def clockConfig : Json :=
  .object [("custom/clock", .object [("exec", .string "date")])]

def clockInputs : Inputs where
  settings := { options := {}, mode := .both, outputDir := "out" }
  configPath := "bar.json"
  config := .ok clockConfig

/-- The paths that the run writes to. -/
def clockPaths : List String :=
  ["custom_widgets.json", "widgets/clock.json", "widget_warnings.json",
    "plugins/waybar-clock/manifest.json", "plugins/waybar-clock/Main.qml",
    "plugins/waybar-clock/BarWidget.qml", "plugins/waybar-clock/Settings.qml",
    "plugins/waybar-clock/i18n/en.json", "plugins/waybar-clock/README.md"]

theorem path_emitted_clock {plugins : List Plugin}
    (hplugins : (extract clockConfig clockInputs.settings.options).mapM
      (Plugin.ofModule · clockInputs.settings.options.defaultInterval) = .ok plugins) :
    (emitted clockInputs.settings (extract clockConfig clockInputs.settings.options) plugins).map
        (·.path) = clockPaths := by
  rw [emitted_both _ _ _ rfl, List.map_append, path_plugins hplugins]
  decide +kernel

theorem failure_run_clock : (run clockArguments clockEnvironment clockTree).failure = none := by
  obtain ⟨plugins, hplugins, -⟩ :=
    exists_plugins (extract clockConfig clockInputs.settings.options)
      clockInputs.settings.options.defaultInterval
  have h : Writes clockArguments clockEnvironment clockTree clockInputs clockConfig plugins :=
    ⟨rfl, rfl, rfl, by decide +kernel, hplugins⟩
  -- Empty artifacts are written instead, so that no template has to be rendered.
  let artifacts : List Artifact := clockPaths.map (⟨·, ""⟩)
  have hpaths : artifacts.map (·.path) = clockPaths := rfl
  have hbatch : (clockTree.writeBatch "/home" "out" artifacts).2.isOk = true := by decide +kernel
  exact h.failure_eq_none_of_path (hpaths.trans (path_emitted_clock hplugins).symm) hbatch

theorem path_clockPaths : ∀ p ∈ clockPaths, ".." ∉ Path.components (Path.join "out" p) ∧
    startOf "/home" (Path.join "out" p) ++ Path.components (Path.join "out" p) ≠
      ["home", "out", "notes.txt"] := by
  decide +kernel

/-- The run writes over the old artifact and leaves the other file alone. -/
theorem run_leaves_clock :
    clockArguments.dryRun = false ∧
      readInputs clockArguments clockEnvironment clockTree = .ok clockInputs ∧
      clockInputs.config = .ok clockConfig ∧
      extract clockConfig clockInputs.settings.options ≠ [] ∧
      (run clockArguments clockEnvironment clockTree).failure = none ∧
      ∃ plugins, (extract clockConfig clockInputs.settings.options).mapM
          (Plugin.ofModule · clockInputs.settings.options.defaultInterval) = .ok plugins ∧
        let artifacts :=
          emitted clockInputs.settings (extract clockConfig clockInputs.settings.options) plugins
        let after := (run clockArguments clockEnvironment clockTree).tree
        let afterOnly := fun mode : ArtifactMode ↦
          (run { clockArguments with mode := some mode } clockEnvironment clockTree).tree
        artifacts.map (·.path) = clockPaths ∧
        (∀ a ∈ artifacts, after.file? "/home" (Path.join "out" a.path) = some (.text a.contents)) ∧
        after.lookup? ["home", "out", "notes.txt"] = some (.file (.text "kept")) ∧
        changes clockTree after =
          changes clockTree (afterOnly .widgets) ∪ changes clockTree (afterOnly .plugins) := by
  have hnonempty : extract clockConfig clockInputs.settings.options ≠ [] := by decide +kernel
  obtain ⟨plugins, hplugins, hfound, hrest, hboth⟩ :=
    @run_leaves clockArguments clockEnvironment clockTree clockInputs clockConfig rfl rfl rfl
      hnonempty failure_run_clock
  have hpaths := path_emitted_clock hplugins
  refine ⟨rfl, rfl, rfl, hnonempty, failure_run_clock, plugins, hplugins, hpaths, hfound, ?_,
    (hboth rfl).2.2⟩
  rcases hrest ["home", "out", "notes.txt"] with ⟨a, ha, hwalk⟩ | hsame | ⟨hnone, -⟩
  · have hp : a.path ∈ clockPaths := hpaths ▸ List.mem_map_of_mem ha
    obtain ⟨hdots, hne⟩ := path_clockPaths a.path hp
    exact absurd (eq_append_of_walk hdots hwalk).symm hne
  · exact hsame.trans rfl
  · exact nomatch hnone

end BarBridge
