import BarBridge.Proofs.CommandLine.Course
import BarBridge.Proofs.Files.Destinations
import BarBridge.Proofs.Widget.Warnings

/-!
# Runs into the same directory

A run writes its own artifacts and removes nothing. For most of them it makes no difference what
earlier runs have left, because the new ones are written over the old. The document of warnings is
written only where there is a warning, so a run without warnings leaves the one it finds: what the
file tells of is not the last run, but the last one that had something to tell
(`warnings_file_of_history`).

## Histories

Between two runs anything may happen outside of the directory; a configuration has to be changed
somehow. A `History` is such a course of runs and changes, and lists what each run has converted,
newest first. The step of the argument is about one run, which writes the file
(`RunsInto.fileAt?_of_warned`) or keeps clear of it (`RunsInto.fileAt?_of_unwarned`), and the
induction is on the history.

Only files are looked at, not directories: the way to the output directory may lead down and up
again and leave directories behind, but no file.
-/

namespace BarBridge

open FileTree

/-! ## One run

A run with a warning has an artifact at the location of the document and writes it over what is
there. For a run without one it is not enough that no artifact has this location: none may have a
directory there either. -/

/-- A run for widgets that succeeds and whose output directory is at a location. -/
structure RunsInto (base : Location) (args : Arguments) (env : Environment) (t : FileTree)
    (inputs : Inputs) (config : Json) : Prop extends Reads args env t inputs config where
  dry : args.dryRun = false
  mode : inputs.settings.mode = .widgets
  leads : (t.makeDirectories (startOf env.cwd inputs.settings.outputDir)
    (Path.components inputs.settings.outputDir)).2 = some base
  success : (run args env t).failure = none

/-- What is converted from what has been read. -/
def Inputs.widgets (inputs : Inputs) (config : Json) : List ConvertedWidget :=
  convertWidgets inputs.settings.options (extract config inputs.settings.options)

/-- The location of the document of warnings. -/
def warningsLocation (base : Location) : Location :=
  base ++ Address.warnings.components

/-- No file but the document of warnings is at its location, or has a directory there. -/
theorem path_eq_warnings {options : Options} {modules : List CustomModule} {a : Artifact}
    (ha : a ∈ ConvertedWidget.files (convertWidgets options modules))
    (h : Address.warnings.components <+: Path.components a.path) :
    a.path = Address.warnings.path := by
  obtain ⟨warned, hpaths⟩ := path_files options modules
  obtain ⟨b, -, hb⟩ := exists_address_of_mem hpaths ha
  rw [hb, b.components_path] at h
  rw [hb, Address.eq_of_prefix h]

section

variable {base : Location} {args : Arguments} {env : Environment} {t : FileTree} {inputs : Inputs}
  {config : Json} (h : RunsInto base args env t inputs config)

include h

theorem RunsInto.exists_gains (hne : extract config inputs.settings.options ≠ []) :
    ∃ u, Grown t u ∧ u.Gains base (ConvertedWidget.files (inputs.widgets config))
      (run args env t).tree := by
  obtain ⟨plugins, hconverts⟩ := h.exists_converts hne
  have hemitted : emitted inputs.settings (extract config inputs.settings.options) plugins =
      ConvertedWidget.files (inputs.widgets config) := by
    rw [emitted, h.mode]
    exact List.append_nil _
  obtain ⟨u, base', hmake, -, hgains⟩ := (hconverts.writes h.dry).exists_gains h.success
  have hbase := h.leads
  rw [hmake] at hbase
  obtain rfl : base' = base := Option.some.inj hbase
  exact ⟨u, grown_of_makeDirectories hmake, hemitted ▸ hgains⟩

theorem RunsInto.fileAt?_of_warned
    (hwarned : ConvertedWidget.withWarnings (inputs.widgets config) ≠ []) :
    (run args env t).tree.fileAt? (warningsLocation base) =
      some (.text (Artifact.document
        (ConvertedWidget.warningsDocument (inputs.widgets config)))) := by
  have hne : extract config inputs.settings.options ≠ [] := by
    intro hnone
    rw [Inputs.widgets, hnone] at hwarned
    exact hwarned rfl
  obtain ⟨u, -, hgains⟩ := h.exists_gains hne
  have hfile := hgains.file _ (ConvertedWidget.warningsDocument_mem_files hwarned)
  rw [Artifact.json, Address.components_path] at hfile
  rw [warningsLocation, FileTree.fileAt?, hfile]

theorem RunsInto.fileAt?_of_unwarned
    (hwarned : ConvertedWidget.withWarnings (inputs.widgets config) = []) :
    (run args env t).tree.fileAt? (warningsLocation base) = t.fileAt? (warningsLocation base) := by
  by_cases hne : extract config inputs.settings.options = []
  · rw [h.run_eq hne]
  obtain ⟨u, hgrown, hgains⟩ := h.exists_gains hne
  have hnone : ∀ a ∈ ConvertedWidget.files (inputs.widgets config),
      ¬Address.warnings.components <+: Path.components a.path := by
    intro a ha hprefix
    exact (ConvertedWidget.exists_mem_files_iff _).mp ⟨a, ha, path_eq_warnings ha hprefix⟩ hwarned
  have huntouched : Untouched base (ConvertedWidget.files (inputs.widgets config))
      (warningsLocation base) := by
    intro a ha
    constructor
    · intro heq
      exact hnone a ha (List.append_cancel_left heq ▸ List.prefix_rfl)
    · intro hbetween
      exact hnone a ha ((between_append_iff.mp hbetween).2.trans (List.dropLast_prefix _))
  rw [fileAt?_congr (hgains.other _ huntouched), hgrown.fileAt?]

end

/-! ## Any number of runs

The last run need not have touched the file. So the induction compares it with the newest run that
had something to tell, and every step either replaces this run or leaves both alone. -/

/-- A course of runs into a directory that is empty at first. The list says what the runs have
converted, newest first. -/
inductive History (base : Location) : List (List ConvertedWidget) → FileTree → Prop where
  | empty {t : FileTree} (h : ∀ names, names ≠ [] → t.lookup? (base ++ names) = none) :
      History base [] t
  /-- Something happens outside of the directory. -/
  | meanwhile {runs : List (List ConvertedWidget)} {t t' : FileTree} (h : History base runs t)
      (hsame : ∀ names, names ≠ [] → t'.lookup? (base ++ names) = t.lookup? (base ++ names)) :
      History base runs t'
  | run {runs : List (List ConvertedWidget)} {t : FileTree} {args : Arguments} {env : Environment}
      {inputs : Inputs} {config : Json} (h : History base runs t)
      (hrun : RunsInto base args env t inputs config) :
      History base (inputs.widgets config :: runs) (run args env t).tree

section

variable {base : Location} {runs : List (List ConvertedWidget)} {t : FileTree}
  (h : History base runs t)

include h

/-- **The document of warnings is that of the last run with warnings.** -/
theorem History.fileAt?_warnings :
    t.fileAt? (warningsLocation base) =
      (runs.find? fun ws ↦ ConvertedWidget.withWarnings ws ≠ []).map fun ws ↦
        .text (Artifact.document (ConvertedWidget.warningsDocument ws)) := by
  have hlocation : Address.warnings.components ≠ [] := List.cons_ne_nil _ _
  induction h with
  | empty hempty =>
    rw [warningsLocation, FileTree.fileAt?, hempty _ hlocation]
    rfl
  | meanwhile _ hsame ih => exact (fileAt?_congr (hsame _ hlocation)).trans ih
  | @run runs t args env inputs config _ hrun ih =>
    by_cases hwarned : ConvertedWidget.withWarnings (inputs.widgets config) = []
    · rw [hrun.fileAt?_of_unwarned hwarned, List.find?_cons_of_neg (by simpa using hwarned)]
      exact ih
    · rw [hrun.fileAt?_of_warned hwarned, List.find?_cons_of_pos (by simpa using hwarned)]
      rfl

theorem History.nodup_names {ws : List ConvertedWidget} (hws : ws ∈ runs) :
    (ws.map (·.name)).Nodup := by
  induction h with
  | empty _ => exact absurd hws List.not_mem_nil
  | meanwhile _ _ ih => exact ih hws
  | run _ _ ih =>
    rcases List.mem_cons.mp hws with rfl | hws
    · exact nodup_names_convertWidgets _ _
    · exact ih hws

/-- **What the file of warnings tells of.** It is there exactly if some run had a warning, and what
is read from it are the messages of the last run that had one. -/
theorem warnings_file_of_history :
    ((t.fileAt? (base ++ ["widget_warnings.json"])).isSome ↔
        ∃ ws ∈ runs, ConvertedWidget.withWarnings ws ≠ []) ∧
      ∀ ws, runs.find? (fun ws ↦ ConvertedWidget.withWarnings ws ≠ []) = some ws →
        ∃ text, t.fileAt? (base ++ ["widget_warnings.json"]) = some (.text text) ∧
          Json.parse text.toList = .ok (.object ((ConvertedWidget.withWarnings ws).map fun w ↦
            (w.name, .array (w.warnings.map fun x ↦ .string x.message)))) := by
  have hfile := h.fileAt?_warnings
  rw [warningsLocation, Address.components] at hfile
  rw [hfile]
  constructor
  · rw [Option.isSome_map, List.find?_isSome]
    simp
  · intro ws hws
    rw [hws]
    have hnames := h.nodup_names (List.mem_of_find?_eq_some hws)
    exact ⟨_, rfl, ConvertedWidget.parse_warningsDocument hnames⟩

end

/-! ## A run with a warning and one without -/

/-- A working directory with two configurations of the same module and an empty output directory.
One of them leaves the interval open, which is announced. -/
def intervalTree : FileTree where
  entries := [
    (["home"], .directory),
    (["home", "open.json"],
      .file (.text "\x7b\"custom/clock\": \x7b\"exec\": \"date\"\x7d\x7d")),
    (["home", "stated.json"],
      .file (.text "\x7b\"custom/clock\": \x7b\"exec\": \"date\", \"interval\": 1\x7d\x7d")),
    (["home", "out"], .directory)]
  limits := .unbounded

def intervalArguments (configPath : String) : Arguments where
  configPath := some configPath
  outputDir := some "out"

def intervalSettings : RunSettings where
  options := {}
  mode := .widgets
  outputDir := "out"

/-- What is converted where the interval is left open. -/
def openWidgets : List ConvertedWidget :=
  convertWidgets {} (extract clockConfig {})

/-- What is converted where it is stated. -/
def statedWidgets : List ConvertedWidget :=
  convertWidgets {} (extract (.object [("custom/clock",
    .object [("exec", .string "date"), ("interval", .number (.int 1))])]) {})

theorem exists_runsInto {base : Location} {args : Arguments} {env : Environment} {t : FileTree}
    (settings : RunSettings) {ws : List ConvertedWidget} (hdry : args.dryRun = false)
    (hread : ((readInputs args env t).toOption.bind fun inputs ↦
      inputs.config.toOption.map fun config ↦ (inputs.settings, inputs.widgets config)) =
        some (settings, ws))
    (hmode : settings.mode = .widgets)
    (hleads : (t.makeDirectories (startOf env.cwd settings.outputDir)
      (Path.components settings.outputDir)).2 = some base)
    (hsuccess : (run args env t).failure.isNone = true) :
    ∃ inputs config, RunsInto base args env t inputs config ∧ inputs.widgets config = ws := by
  cases hinputs : readInputs args env t with
  | error f =>
    rw [hinputs] at hread
    contradiction
  | ok inputs =>
    cases hconfig : inputs.config with
    | error f => simp [Except.toOption, hinputs, hconfig] at hread
    | ok config =>
      simp only [Except.toOption, hinputs, hconfig, Option.bind_some, Option.map_some,
        Option.some.injEq, Prod.mk.injEq] at hread
      obtain ⟨rfl, hws⟩ := hread
      exact ⟨inputs, config, ⟨⟨hinputs, hconfig⟩, hdry, hmode, hleads,
        Option.isNone_iff_eq_none.mp hsuccess⟩, hws⟩

theorem exists_history_interval :
    ∃ t, History ["home", "out"] [statedWidgets, openWidgets] t := by
  have hempty : History ["home", "out"] [] intervalTree := by
    refine .empty fun names hne ↦ ?_
    obtain ⟨name, names, rfl⟩ := List.exists_cons_of_ne_nil hne
    rfl
  let t := (run (intervalArguments "open.json") clockEnvironment intervalTree).tree
  have hopen : ∃ inputs config, RunsInto ["home", "out"] (intervalArguments "open.json")
      clockEnvironment intervalTree inputs config ∧ inputs.widgets config = openWidgets :=
    exists_runsInto intervalSettings rfl (by decide +kernel) rfl (by decide +kernel)
      (by decide +kernel)
  have hstated : ∃ inputs config, RunsInto ["home", "out"] (intervalArguments "stated.json")
      clockEnvironment t inputs config ∧ inputs.widgets config = statedWidgets :=
    exists_runsInto intervalSettings rfl (by decide +kernel) rfl (by decide +kernel)
      (by decide +kernel)
  obtain ⟨inputs, config, hrun, hwidgets⟩ := hopen
  obtain ⟨inputs', config', hrun', hwidgets'⟩ := hstated
  have hboth := (hempty.run hrun).run hrun'
  rw [hwidgets, hwidgets'] at hboth
  exact ⟨_, hboth⟩

/-- The file tells of the first run, since the second has nothing to tell. -/
theorem warnings_file_of_history_interval :
    ∃ t text, History ["home", "out"] [statedWidgets, openWidgets] t ∧
      ConvertedWidget.withWarnings statedWidgets = [] ∧
      t.fileAt? ["home", "out", "widget_warnings.json"] = some (.text text) ∧
      Json.parse text.toList = .ok (.object [("clock",
        .array [.string "interval not set; defaulting to 60s (Waybar default)."])]) := by
  obtain ⟨t, ht⟩ := exists_history_interval
  have hlast : [statedWidgets, openWidgets].find?
      (fun ws ↦ ConvertedWidget.withWarnings ws ≠ []) = some openWidgets := by decide +kernel
  obtain ⟨-, hcontents⟩ := warnings_file_of_history ht
  obtain ⟨text, hfile, hparse⟩ := hcontents _ hlast
  exact ⟨t, text, ht, by decide +kernel, hfile, hparse⟩

/-- **The file does not reflect the last run.** It may be there although that run had nothing to
tell. -/
theorem warnings_file_outlasts_run :
    ¬∀ base ws runs t, History base (ws :: runs) t →
      ((t.fileAt? (base ++ ["widget_warnings.json"])).isSome ↔
          ConvertedWidget.withWarnings ws ≠ []) ∧
        (ConvertedWidget.withWarnings ws ≠ [] →
          ∃ text, t.fileAt? (base ++ ["widget_warnings.json"]) = some (.text text) ∧
            Json.parse text.toList = .ok (.object ((ConvertedWidget.withWarnings ws).map fun w ↦
              (w.name, .array (w.warnings.map fun x ↦ .string x.message))))) := by
  intro hclaim
  obtain ⟨t, ht⟩ := exists_history_interval
  have hlast : ([statedWidgets, openWidgets].find?
      fun ws ↦ ConvertedWidget.withWarnings ws ≠ []).isSome = true := by decide +kernel
  have hquiet : ConvertedWidget.withWarnings statedWidgets = [] := by decide +kernel
  have hfile : (t.fileAt? (warningsLocation ["home", "out"])).isSome = true := by
    rw [ht.fileAt?_warnings, Option.isSome_map]
    exact hlast
  exact (hclaim _ _ _ _ ht).1.mp hfile hquiet

end BarBridge
