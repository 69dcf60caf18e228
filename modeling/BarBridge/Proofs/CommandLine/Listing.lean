import BarBridge.Proofs.CommandLine.Course

/-!
# What a run lists

A run tells the user which paths it writes, or would write. Each path is a print of its own, a mark
with the path behind it, and these prints have to be exact: a dry run that announces one file too
few is worse than none.

What is proved is about the prints (`listed`), which are the entries of what a run has printed, and
not about the lines that a terminal shows. A path is printed as it is. Where a name or a directory
has a line feed in it, the print goes on for several lines of the output, and any of these lines can
look like anything, also like another path. Of a reader that takes the output line by line nothing
is claimed.

## No other print begins like one of these

Most of what is printed has text of the user's in it, and a print of a report begins with blanks as
these do. So it has to be checked that nothing else that is printed begins with a mark
(`sound_ofModules`). It is enough to compare beginnings: a print begins with words of the program,
and these differ from the mark before any text of the user's follows.

## Batches

A path is listed when its batch has been written, not when its file has. In a run that fails, the
steps up to some point have been performed as a whole and their paths are listed, and the rest has
left files that are not (`exists_performed`). That the files listed are still there is then a
question about batches and was answered there.
-/

namespace BarBridge

open FileTree

/-! ## Prints with a mark -/

/-- What stands in front of a path in a print that lists it. -/
def mark : Bool → String
  | true => "  Would write: "
  | false => "  Generated: "

theorem announce_eq (dryRun : Bool) (path : String) :
    announce dryRun path = mark dryRun ++ path := by
  cases dryRun <;> rfl

/-- The paths that are listed by what has been printed. Each entry lists one path or none: a line
feed in it is part of its path. -/
def listed (dryRun : Bool) (lines : List String) : List String :=
  lines.filterMap fun l ↦ (l.toList.dropPrefix? (mark dryRun).toList).map String.ofList

/-- Whether a print lists no path, whatever lines the text in it goes on for. -/
def Unlisted (line : String) : Prop :=
  ∀ dryRun, ¬(mark dryRun).toList <+: line.toList

instance (line : String) : Decidable (Unlisted line) :=
  inferInstanceAs (Decidable (∀ dryRun, ¬(mark dryRun).toList <+: line.toList))

/-- Whether a text and the marks differ before any of them ends. -/
def Unmarked (start : String) : Prop :=
  ∀ dryRun, ¬(mark dryRun).toList <+: start.toList ∧ ¬start.toList <+: (mark dryRun).toList

instance (start : String) : Decidable (Unmarked start) :=
  inferInstanceAs (Decidable (∀ _, _ ∧ _))

theorem Unmarked.unlisted_append {start : String} (h : Unmarked start) (rest : String) :
    Unlisted (start ++ rest) := by
  intro dryRun hmark
  rw [String.toList_append] at hmark
  rcases List.prefix_or_prefix_of_prefix hmark (List.prefix_append _ _) with hstart | hstart
  · exact (h dryRun).1 hstart
  · exact (h dryRun).2 hstart

theorem listed_append (dryRun : Bool) (lines lines' : List String) :
    listed dryRun (lines ++ lines') = listed dryRun lines ++ listed dryRun lines' :=
  List.filterMap_append

theorem listed_of_unlisted (dryRun : Bool) {lines : List String} (h : ∀ l ∈ lines, Unlisted l) :
    listed dryRun lines = [] := by
  refine List.filterMap_eq_nil_iff.mpr fun l hl ↦ ?_
  rw [Option.map_eq_none_iff, Option.eq_none_iff_forall_ne_some]
  intro rest hrest
  obtain ⟨front, hfront, hmark⟩ := List.dropPrefix?_eq_some_iff.mp hrest
  rw [beq_iff_eq] at hmark
  exact h l hl dryRun ⟨rest, by rw [← hmark, hfront]⟩

theorem listed_map_announce (dryRun : Bool) (paths : List String) :
    listed dryRun (paths.map (announce dryRun)) = paths := by
  rw [listed, List.filterMap_map]
  refine (List.filterMap_congr fun path _ ↦ ?_).trans List.filterMap_some
  have hdrop : ((mark dryRun).toList ++ path.toList).dropPrefix? (mark dryRun).toList =
      some path.toList :=
    List.dropPrefix?_append_of_beq _ (beq_self_eq_true _)
  rw [Function.comp_apply, announce_eq, String.toList_append, hdrop, Option.map_some,
    String.ofList_toList]

/-! ## The steps of a plan

Two things are asked of a step. What it says lists no path, so that the paths listed are those of
batches. And a batch has an artifact below the output directory, so that this is known to be a
directory once the batch has been written. -/

/-- Whether a step prints no path but those of its batch, and writes something below the output
directory. -/
def Step.Sound : Step → Prop
  | say lines => ∀ l ∈ lines, Unlisted l
  | emit batch => ∃ a ∈ batch, (Path.components a.path).dropLast ≠ []

theorem unlisted_readingLine (path : String) : Unlisted (readingLine path) :=
  Unmarked.unlisted_append (by decide) path

theorem sound_headline {title : String} (h : Unlisted title) : (Plan.headline title).Sound :=
  List.forall_mem_cons.mpr ⟨by decide, List.forall_mem_singleton.mpr h⟩

theorem unlisted_banner {title : String} (h : Unlisted title) :
    ∀ l ∈ Plan.banner title, Unlisted l := by
  simp only [Plan.banner, List.forall_mem_cons]
  exact ⟨by decide, by decide, h, by decide, List.forall_mem_nil _⟩

theorem unlisted_reportLines (settings : RunSettings) (m : CustomModule) :
    ∀ l ∈ Plan.reportLines settings m, Unlisted l := by
  have htitle : ∀ title source : String, Unlisted s!"[{title}] ({source})" := by
    intro title source
    have hassoc : s!"[{title}] ({source})" = "[" ++ (title ++ "] (" ++ source ++ ")") := by
      simp only [← String.append_assoc]
      rfl
    rw [hassoc]
    exact Unmarked.unlisted_append (by decide) _
  simp only [Plan.reportLines, List.forall_mem_append, List.forall_mem_cons, List.forall_mem_map]
  refine ⟨⟨⟨by decide, htitle _ _, List.forall_mem_nil _⟩, ?_⟩, by decide,
    fun c _ ↦ Unmarked.unlisted_append (by decide) _⟩
  split
  · exact List.forall_mem_singleton.mpr (by decide)
  · simp only [List.forall_mem_cons, List.forall_mem_map]
    exact ⟨by decide, fun n _ ↦ Unmarked.unlisted_append (by decide) _⟩

theorem sound_report (settings : RunSettings) (modules : List CustomModule) :
    (Plan.report settings modules).Sound := by
  refine List.forall_mem_append.mpr ⟨unlisted_banner (by decide), fun l hl ↦ ?_⟩
  obtain ⟨m, -, hl⟩ := List.mem_flatMap.mp hl
  exact unlisted_reportLines settings m l hl

theorem sound_summary (args : Arguments) (env : Environment) (settings : RunSettings) :
    (Plan.summary args env settings).Sound := by
  have hbanner : Unlisted (if args.dryRun then "DRY RUN COMPLETE" else "CONVERSION COMPLETE") := by
    split
    · decide
    · decide
  have hplace : ∀ dir, Unlisted
      ((if args.dryRun then "Output would be written to: " else "Output written to: ") ++ dir) := by
    intro dir
    split
    · exact Unmarked.unlisted_append (by decide) dir
    · exact Unmarked.unlisted_append (by decide) dir
  simp only [Plan.summary, Step.Sound, List.forall_mem_append, List.forall_mem_cons]
  refine ⟨⟨⟨unlisted_banner hbanner, by decide, hplace _, List.forall_mem_nil _⟩, ?_⟩, ?_⟩
  · split
    · decide
    · exact List.forall_mem_nil _
  · split
    · decide
    · exact List.forall_mem_nil _

variable {args : Arguments} {env : Environment} {t : FileTree} {inputs : Inputs} {config : Json}
  {plugins : List Plugin}

theorem steps_ofModules (args : Arguments) (env : Environment) {settings : RunSettings}
    {modules : List CustomModule}
    (h : modules.mapM (Plugin.ofModule · settings.options.defaultInterval) = .ok plugins) :
    ∃ names, (Plan.ofModules args env settings modules).steps =
      .say [s!"Found {modules.length} custom module(s): " ++ names] ::
        (if settings.mode.includesWidgets then Plan.widgetSteps settings modules else []) ++
        (if settings.mode.includesPlugins then
          Plan.headline "Generating plugin scaffolds..." :: plugins.map fun p ↦ .emit p.files
        else []) ++
        (if args.verbose then [Plan.report settings modules] else []) ++
        [Plan.summary args env settings] := by
  refine ⟨", ".intercalate (modules.map (·.name)), ?_⟩
  rw [Plan.ofModules, Plan.pluginBatches, map_eq_of_mapM_eq_ok h, batches_map_ok]
  cases settings.mode <;> rfl

theorem sound_emit_plugin {settings : RunSettings} {modules : List CustomModule}
    (h : modules.mapM (Plugin.ofModule · settings.options.defaultInterval) = .ok plugins)
    {p : Plugin} (hp : p ∈ plugins) : (Step.emit p.files).Sound := by
  have hmem : Except.ok p ∈ modules.map (Plugin.ofModule · settings.options.defaultInterval) := by
    rw [map_eq_of_mapM_eq_ok h]
    exact List.mem_map_of_mem hp
  obtain ⟨m, -, hm⟩ := List.mem_map.mp hmem
  have hone : [m].mapM (Plugin.ofModule · settings.options.defaultInterval) = .ok [p] := by
    rw [List.mapM_cons, hm]
    rfl
  have hdeep : ∃ a ∈ emitted { settings with mode := .plugins } [m] [p],
      (Path.components a.path).dropLast ≠ [] :=
    exists_deep (List.cons_ne_nil m []) hone
  rwa [emitted_plugins, List.flatMap_singleton] at hdeep

/-- **Nothing that a plan says begins like a print that lists a path**, and every batch has an
artifact below the output directory. -/
theorem sound_ofModules (args : Arguments) (env : Environment) {settings : RunSettings}
    {modules : List CustomModule} (hmodules : modules ≠ [])
    (h : modules.mapM (Plugin.ofModule · settings.options.defaultInterval) = .ok plugins) :
    ∀ s ∈ (Plan.ofModules args env settings modules).steps, s.Sound := by
  obtain ⟨names, hsteps⟩ := steps_ofModules args env h
  have hfound : Unlisted (s!"Found {modules.length} custom module(s): " ++ names) := by
    have hassoc : s!"Found {modules.length} custom module(s): " ++ names =
        "Found " ++ (toString modules.length ++ " custom module(s): " ++ names) := by
      simp only [← String.append_assoc]
      rfl
    rw [hassoc]
    exact Unmarked.unlisted_append (by decide) _
  have hwidgets : ∀ s ∈ Plan.widgetSteps settings modules, s.Sound := by
    refine List.forall_mem_cons.mpr ⟨sound_headline (by decide), List.forall_mem_singleton.mpr ?_⟩
    have hdeep : ∃ a ∈ emitted { settings with mode := .widgets } modules plugins,
        (Path.components a.path).dropLast ≠ [] :=
      exists_deep hmodules h
    rwa [emitted_widgets] at hdeep
  have hplugins : ∀ s ∈ Plan.headline "Generating plugin scaffolds..." ::
      plugins.map fun p ↦ .emit p.files, s.Sound := by
    refine List.forall_mem_cons.mpr ⟨sound_headline (by decide), ?_⟩
    exact List.forall_mem_map.mpr fun p hp ↦ sound_emit_plugin h hp
  have hif : ∀ (b : Bool) {steps : List Step}, (∀ s ∈ steps, s.Sound) →
      ∀ s ∈ if b then steps else [], s.Sound := by
    intro b steps hall
    split
    · exact hall
    · exact List.forall_mem_nil _
  rw [hsteps]
  simp only [List.cons_append, List.forall_mem_cons, List.forall_mem_append]
  exact ⟨List.forall_mem_singleton.mpr hfound, ⟨⟨hif _ hwidgets, hif _ hplugins⟩,
    hif _ (List.forall_mem_singleton.mpr (sound_report settings modules))⟩,
    sound_summary args env settings, List.forall_mem_nil _⟩

/-! ## Performing steps

A dry run goes through all steps. A real run may stop in the middle, and what it has listed is then
known by the steps that it has performed, which are the longest beginning that could be written. -/

section

variable {cwd root : String} {steps : List Step}

theorem listed_performAll_true (t : FileTree) (h : ∀ s ∈ steps, s.Sound) :
    listed true (Step.performAll true cwd root t steps).lines =
      (steps.flatMap Step.artifacts).map fun a ↦ Path.join root a.path := by
  induction steps with
  | nil => rfl
  | cons step steps ih =>
    rw [List.forall_mem_cons] at h
    rw [List.flatMap_cons, List.map_append, ← ih h.2]
    rcases step with lines | batch
    · exact (listed_append true lines _).trans
        (congrArg (· ++ _) (listed_of_unlisted true h.1))
    · have hbatch : batch.map (fun a ↦ announce true (Path.join root a.path)) =
          (batch.map fun a ↦ Path.join root a.path).map (announce true) := by
        rw [List.map_map]
        rfl
      refine (listed_append true _ _).trans (congrArg (· ++ _) ?_)
      rw [hbatch]
      exact listed_map_announce true _

variable (cwd root) in
/-- **What a real run has listed when it ends.** Some steps have been performed as a whole, and the
paths listed are those of their artifacts; the batch of all others has been begun. Where there are
others, the run has failed. -/
theorem exists_performed (t : FileTree) (h : ∀ s ∈ steps, s.Sound) :
    ∃ performed rest u paths, steps = performed ++ rest ∧
      t.writeBatch cwd root (performed.flatMap Step.artifacts) = (u, .ok paths) ∧
      listed false (Step.performAll false cwd root t steps).lines =
        (performed.flatMap Step.artifacts).map (fun a ↦ Path.join root a.path) ∧
      (Step.performAll false cwd root t steps).tree =
        (u.writeBatch cwd root (rest.flatMap Step.artifacts)).1 ∧
      ((Step.performAll false cwd root t steps).failure = none → rest = []) := by
  induction steps generalizing t with
  | nil => exact ⟨[], [], t, [], rfl, rfl, rfl, rfl, fun _ ↦ rfl⟩
  | cons step steps ih =>
    rw [List.forall_mem_cons] at h
    rcases step with lines | batch
    · obtain ⟨performed, rest, u, paths, rfl, hwritten, hlisted, htree, hrest⟩ := ih t h.2
      refine ⟨.say lines :: performed, rest, u, paths, rfl, hwritten, ?_, htree, hrest⟩
      exact (listed_append false lines _).trans
        ((congrArg (· ++ _) (listed_of_unlisted false h.1)).trans hlisted)
    · rcases hbatch : t.writeBatch cwd root batch with ⟨u, cause | paths⟩
      · -- The batch stops, and the steps end with it.
        refine ⟨[], .emit batch :: steps, t, [], rfl, rfl, ?_, ?_, ?_⟩
        · simp only [Step.performAll, hbatch]
          rfl
        · rw [List.flatMap_cons, Step.artifacts, writeBatch_append, hbatch, Step.performAll]
          simp only [hbatch, Bool.false_eq_true, if_false]
        · simp only [Step.performAll, hbatch, Bool.false_eq_true, if_false]
          intro hnone
          contradiction
      · obtain ⟨performed, rest, v, paths', rfl, hwritten, hlisted, htree, hrest⟩ := ih u h.2
        refine ⟨.emit batch :: performed, rest, v, paths ++ paths', rfl, ?_, ?_, ?_, ?_⟩
        · rw [List.flatMap_cons, Step.artifacts, writeBatch_append, hbatch]
          simp only [hwritten]
        · simp only [Step.performAll, hbatch, Bool.false_eq_true, if_false]
          rw [listed_append, listed_map_announce, hlisted, paths_of_writeBatch hbatch,
            List.flatMap_cons, List.map_append]
          rfl
        · simp only [Step.performAll, hbatch, Bool.false_eq_true, if_false]
          exact htree
        · simp only [Step.performAll, hbatch, Bool.false_eq_true, if_false]
          exact hrest

end

/-! ## Runs that read the same -/

/-- What a run that is no dry run has to write, and below which directory. -/
inductive Emits (args : Arguments) (env : Environment) (t : FileTree) :
    String → List Artifact → Prop where
  | nothing {inputs : Inputs} {config : Json} (h : Reads args env t inputs config)
      (hnone : extract config inputs.settings.options = []) :
      Emits args env t inputs.settings.outputDir []
  | converts {inputs : Inputs} {config : Json} {plugins : List Plugin}
      (h : Converts args env t inputs config plugins) :
      Emits args env t inputs.settings.outputDir
        (emitted inputs.settings (extract config inputs.settings.options) plugins)

section

variable {args' : Arguments} (hsame : readInputs args' env t = readInputs args env t)

include hsame

theorem Unread.congr {f : Failure} (h : Unread args env t f) : Unread args' env t f := by
  rcases h with hread | ⟨hread, hconfig⟩
  · exact .inputs (hsame.trans hread)
  · exact .config (hsame.trans hread) hconfig

theorem Reads.congr (h : Reads args env t inputs config) : Reads args' env t inputs config :=
  ⟨hsame.trans h.read, h.parsed⟩

theorem Converts.congr (h : Converts args env t inputs config plugins) :
    Converts args' env t inputs config plugins :=
  ⟨h.toReads.congr hsame, h.nonempty, h.made⟩

end

/-! ## What a run that converts lists -/

theorem Converts.listed_dry (h : Converts args env t inputs config plugins)
    (hdry : args.dryRun = true) :
    listed true (run args env t).lines =
      (emitted inputs.settings (extract config inputs.settings.options) plugins).map
        fun a ↦ Path.join inputs.settings.outputDir a.path := by
  rw [h.run_eq, hdry, ← (artifacts_ofModules args env h.made).2,
    ← listed_performAll_true t (sound_ofModules args env h.nonempty h.made)]
  exact (listed_append true [_] _).trans (congrArg (· ++ _)
    (listed_of_unlisted true (List.forall_mem_singleton.mpr (unlisted_readingLine _))))

/-- A real run lists artifacts that are there when it ends; if it succeeds, it lists them all. -/
theorem Converts.listed_real (h : Converts args env t inputs config plugins)
    (hdry : args.dryRun = false) :
    ∃ first second, emitted inputs.settings (extract config inputs.settings.options) plugins =
        first ++ second ∧
      listed false (run args env t).lines =
        first.map (fun a ↦ Path.join inputs.settings.outputDir a.path) ∧
      (∀ a ∈ first, (run args env t).tree.file? env.cwd
        (Path.join inputs.settings.outputDir a.path) = some (.text a.contents)) ∧
      ((run args env t).failure = none → second = []) := by
  have hwrites := h.writes hdry
  have hdown := hwrites.leadsDown
  have hapart := hwrites.apart
  have hsound := sound_ofModules args env h.nonempty h.made
  obtain ⟨performed, rest, u, paths, hsteps, hwritten, hlisted, htree, hrest⟩ :=
    exists_performed env.cwd inputs.settings.outputDir t hsound
  have hemitted : emitted inputs.settings (extract config inputs.settings.options) plugins =
      performed.flatMap Step.artifacts ++ rest.flatMap Step.artifacts := by
    rw [← List.flatMap_append, ← hsteps, (artifacts_ofModules args env h.made).2]
  rw [hemitted] at hdown hapart
  refine ⟨_, _, hemitted, ?_, ?_, ?_⟩
  · rw [h.run_eq, hdry, ← hlisted]
    exact (listed_append false [_] _).trans (congrArg (· ++ _)
      (listed_of_unlisted false (List.forall_mem_singleton.mpr (unlisted_readingLine _))))
  · intro a ha
    -- The batch of an artifact that is listed has been written as a whole, so one of its artifacts
    -- lies deeper.
    obtain ⟨step, hstep, hmem⟩ := List.mem_flatMap.mp ha
    have hdeep : ∃ b ∈ performed.flatMap Step.artifacts,
        (Path.components b.path).dropLast ≠ [] := by
      rcases step with lines | batch
      · exact absurd hmem List.not_mem_nil
      · obtain ⟨b, hb, hdeep⟩ := hsound _ (hsteps ▸ List.mem_append_left rest hstep)
        exact ⟨b, List.mem_flatMap.mpr ⟨_, hstep, hb⟩, hdeep⟩
    rw [h.run_eq, hdry, htree]
    exact file?_of_writeBatch_append hdown hapart hdeep hwritten a ha
  · intro hsuccess
    rw [h.run_eq, hdry] at hsuccess
    rw [hrest hsuccess]
    rfl

/-! ## Dry runs and real runs

Whether a run is a dry run plays no part in what it reads. So the two runs take the same course
(`course`) and can be compared case by case. -/

theorem listed_of_readingLine (dryRun : Bool) {lines : List String}
    (h : ∀ l ∈ lines, ∃ path, l = readingLine path) : listed dryRun lines = [] := by
  refine listed_of_unlisted dryRun fun l hl ↦ ?_
  obtain ⟨path, rfl⟩ := h l hl
  exact unlisted_readingLine path

theorem Reads.listed_eq_nil (h : Reads args env t inputs config)
    (hnone : extract config inputs.settings.options = []) (dryRun : Bool) :
    listed dryRun (run args env t).lines = [] := by
  rw [h.run_eq hnone]
  refine listed_of_unlisted dryRun (List.forall_mem_cons.mpr ⟨unlisted_readingLine _, ?_⟩)
  exact List.forall_mem_singleton.mpr (by decide)

theorem run_verbose (args : Arguments) (env : Environment) (t : FileTree)
    (verbose noColor : Bool) :
    (run { args with verbose, noColor } env t).tree = (run args env t).tree ∧
      (run { args with verbose, noColor } env t).failure = (run args env t).failure := by
  have hsame : readInputs { args with verbose, noColor } env t = readInputs args env t := rfl
  cases course args env t with
  | unread h =>
    obtain ⟨lines, -, hrun⟩ := h.run_eq
    obtain ⟨lines', -, hrun'⟩ := (h.congr hsame).run_eq
    rw [hrun, hrun']
    exact ⟨rfl, rfl⟩
  | nothing h hnone =>
    rw [h.run_eq hnone, (h.congr hsame).run_eq hnone]
    exact ⟨rfl, rfl⟩
  | converts h =>
    by_cases hdry : args.dryRun = true
    · obtain ⟨htree, hfailure⟩ := h.run_dry hdry
      obtain ⟨htree', hfailure'⟩ := (h.congr hsame).run_dry hdry
      exact ⟨htree'.trans htree.symm, hfailure'.trans hfailure.symm⟩
    · rw [Bool.not_eq_true] at hdry
      have hrun := (h.writes hdry).run_eq
      have hrun' := ((h.congr hsame).writes hdry).run_eq
      exact Prod.mk.inj (hrun'.trans hrun.symm)

/-- **A dry run tells the truth.** It leaves the tree as it was. If the real run succeeds, the dry
run does, and the two list the same paths in the same order, which are those of the artifacts to be
written. However a real run ends, what it has listed is there with its contents. And saying more, or
without colours, changes neither what is written nor the failure. -/
theorem dry_run_lists (args : Arguments) (env : Environment) (t : FileTree) :
    let real := run { args with dryRun := false } env t
    let dry := run { args with dryRun := true } env t
    dry.tree = t ∧
    (real.failure = none → dry.failure = none ∧
      ∃ root artifacts, Emits args env t root artifacts ∧
        listed true dry.lines = artifacts.map (fun a ↦ Path.join root a.path) ∧
        listed false real.lines = artifacts.map fun a ↦ Path.join root a.path) ∧
    (∀ p ∈ listed false real.lines, ∃ root artifacts, Emits args env t root artifacts ∧
      ∃ a ∈ artifacts, p = Path.join root a.path ∧
        real.tree.file? env.cwd p = some (.text a.contents)) ∧
    ∀ verbose noColor,
      (run { args with verbose, noColor } env t).tree = (run args env t).tree ∧
        (run { args with verbose, noColor } env t).failure = (run args env t).failure := by
  have hsame : ∀ dryRun, readInputs { args with dryRun } env t = readInputs args env t :=
    fun _ ↦ rfl
  dsimp only
  suffices h : (run { args with dryRun := true } env t).tree = t ∧ _ ∧ _ from
    ⟨h.1, h.2.1, h.2.2, run_verbose args env t⟩
  cases course args env t with
  | unread h =>
    obtain ⟨lines, hlines, hreal⟩ := (h.congr (hsame false)).run_eq
    obtain ⟨lines', -, hdry⟩ := (h.congr (hsame true)).run_eq
    rw [hreal, hdry]
    refine ⟨rfl, nofun, fun p hp ↦ ?_⟩
    rw [listed_of_readingLine false hlines] at hp
    exact absurd hp List.not_mem_nil
  | nothing h hnone =>
    have hreal := (h.congr (hsame false)).listed_eq_nil hnone false
    have hdry := (h.congr (hsame true)).listed_eq_nil hnone true
    rw [hreal, hdry]
    refine ⟨?_, fun _ ↦ ⟨?_, _, _, .nothing h hnone, rfl, rfl⟩, List.forall_mem_nil _⟩
    · rw [(h.congr (hsame true)).run_eq hnone]
    · rw [(h.congr (hsame true)).run_eq hnone]
  | @converts inputs config plugins h =>
    obtain ⟨first, second, hsplit, hlisted, hfound, hrest⟩ :=
      (h.congr (hsame false)).listed_real rfl
    have hdry := (h.congr (hsame true)).listed_dry rfl
    obtain ⟨htree, hfailure⟩ := (h.congr (hsame true)).run_dry rfl
    refine ⟨htree, fun hsuccess ↦ ⟨hfailure, _, _, .converts h, hdry, ?_⟩, fun p hp ↦ ?_⟩
    · rw [hlisted, hsplit, hrest hsuccess, List.append_nil]
    · rw [hlisted] at hp
      obtain ⟨a, ha, rfl⟩ := List.mem_map.mp hp
      refine ⟨_, _, .converts h, a, ?_, rfl, hfound a ha⟩
      rw [hsplit]
      exact List.mem_append_left second ha

/-- The real run succeeds, and the dry run lists what it writes. -/
theorem dry_run_lists_clock :
    (run clockArguments clockEnvironment clockTree).failure = none ∧
      let dry := run { clockArguments with dryRun := true } clockEnvironment clockTree
      dry.tree = clockTree ∧ dry.failure = none ∧
        listed true dry.lines = clockPaths.map (Path.join "out") := by
  obtain ⟨htree, hsuccess, -⟩ := dry_run_lists clockArguments clockEnvironment clockTree
  obtain ⟨hfailure, root, artifacts, hemits, hlisted, -⟩ := hsuccess failure_run_clock
  refine ⟨failure_run_clock, htree, hfailure, hlisted.trans ?_⟩
  have hreads : Reads clockArguments clockEnvironment clockTree clockInputs clockConfig :=
    ⟨rfl, rfl⟩
  rcases hemits with ⟨h, hnone⟩ | h
  · obtain ⟨rfl, rfl⟩ := hreads.unique h
    exact absurd hnone (by decide +kernel)
  · obtain ⟨rfl, rfl⟩ := hreads.unique h.toReads
    rw [← path_emitted_clock h.made, List.map_map]
    rfl

end BarBridge
