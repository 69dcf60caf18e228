import BarBridge.CommandLine.Arguments
import BarBridge.Files.Batch
import BarBridge.Module.Sections
import BarBridge.Plugin.Basic
import BarBridge.Report
import BarBridge.Settings.Discovery
import BarBridge.Widget.Document

/-!
# A run

A run finds the settings and the bar configuration, reads them, and turns the modules into artifacts
below the output directory, telling the user what it does. Nothing is written before everything to
be read has been read.

## Plan and performance

What a run does once the configuration is read is laid down as a plan: lines to say, and batches of
artifacts to emit, in order. But for its closing words the plan does not depend on whether it is a
dry run. Performing it is where the two differ: a dry run lists the paths of a batch, a real one
writes them and lists what was written. So what a dry run announces and what a real run does come
from the same list.
-/

namespace BarBridge

/-- A step of a plan. -/
inductive Step where
  | say (lines : List String)
  | emit (batch : List Artifact)
  deriving Repr

/-- Steps, and what ends them early. -/
structure Plan where
  steps : List Step
  failure : Option Failure := none
  deriving Repr

/-- How a run ends: what it printed, an entry for each print, the tree it leaves, and what ended it
early. -/
structure Outcome where
  lines : List String
  tree : FileTree
  failure : Option Failure

/-- The decisions of a run. -/
structure RunSettings where
  options : Options
  mode : ArtifactMode
  outputDir : String
  deriving DecidableEq, Repr

namespace RunSettings

/-- The output directory where none is stated. -/
def defaultOutputDir : String := "./waybar-converted"

/-- Merges the command line over the settings file. -/
def merge (args : Arguments) (file : Settings) : RunSettings where
  options := file.options args.defaultInterval args.signalPollInterval
  mode := args.mode.getD file.effectiveMode
  outputDir := (args.outputDir.or file.outputDir).getD defaultOutputDir

end RunSettings

namespace Plan

/-- A headline. -/
def headline (title : String) : Step :=
  .say ["", title]

/-- A headline between rules. -/
def banner (title : String) : List String :=
  let rule := String.ofList (List.replicate 60 '=')
  ["", rule, title, rule]

/-- The steps for the widgets of all modules. -/
def widgetSteps (settings : RunSettings) (modules : List CustomModule) : List Step :=
  [headline "Generating CustomButton widget configurations...",
    .emit (ConvertedWidget.files (convertWidgets settings.options modules))]

/-- One batch for each plugin, up to the first that could not be made. -/
def batches : List (Except Template.Fault Plugin) → Plan
  | [] => ⟨[], none⟩
  | .ok p :: rest =>
    let rest := batches rest
    { rest with steps := .emit p.files :: rest.steps }
  | .error f :: _ => ⟨[], some (.template f)⟩

/-- One batch for the plugin of each module. -/
def pluginBatches (settings : RunSettings) (modules : List CustomModule) : Plan :=
  batches (modules.map (Plugin.ofModule · settings.options.defaultInterval))

/-- The lines of a module's report. -/
def reportLines (settings : RunSettings) (m : CustomModule) : List String :=
  let r := Report.ofModule m settings.options
  ["", s!"[{r.title}] ({r.source})"] ++
    (if r.isFull then ["  Status: Full conversion supported"]
      else "  Warnings:" :: r.notes.map fun n ↦ "  - " ++ n.message) ++
    "  Converted:" :: r.converted.map fun c ↦ "    " ++ c.message

/-- The reports on all modules. -/
def report (settings : RunSettings) (modules : List CustomModule) : Step :=
  .say (banner "CONVERSION REPORT" ++ modules.flatMap (reportLines settings))

/-- Where the artifacts are, and how they are put to use. -/
def summary (args : Arguments) (env : Environment) (settings : RunSettings) : Step :=
  let dir := Path.absolute env.cwd settings.outputDir
  .say <|
    banner (if args.dryRun then "DRY RUN COMPLETE" else "CONVERSION COMPLETE") ++
    ["", (if args.dryRun then "Output would be written to: " else "Output written to: ") ++ dir] ++
    (if settings.mode.includesWidgets then
      ["", "To use CustomButton widgets:",
        "  1. Review the generated JSON in custom_widgets.json",
        "  2. Add widgets to your Noctalia settings.json bar configuration"]
      else []) ++
    if settings.mode.includesPlugins then
      ["", "To use generated plugins:",
        "  1. Copy plugin folders to ~/.config/noctalia/plugins/",
        "  2. Enable them in Noctalia settings",
        "  3. Add the bar widget to your bar configuration"]
    else []

/-- The plan for the modules of a configuration, of which there is at least one. -/
def ofModules (args : Arguments) (env : Environment) (settings : RunSettings)
    (modules : List CustomModule) : Plan :=
  let found :=
    s!"Found {modules.length} custom module(s): " ++ ", ".intercalate (modules.map (·.name))
  let plugins : Plan :=
    if settings.mode.includesPlugins then
      let batches := pluginBatches settings modules
      { batches with steps := headline "Generating plugin scaffolds..." :: batches.steps }
    else ⟨[], none⟩
  let before :=
    .say [found] ::
      (if settings.mode.includesWidgets then widgetSteps settings modules else []) ++ plugins.steps
  match plugins.failure with
  | some f => ⟨before, some f⟩
  | none =>
    ⟨before ++ (if args.verbose then [report settings modules] else []) ++
      [summary args env settings], none⟩

/-- The plan for a configuration. -/
def ofConfig (args : Arguments) (env : Environment) (settings : RunSettings) (config : Json) :
    Plan :=
  match extract config settings.options with
  | [] => ⟨[.say ["No custom modules found in Waybar config."]], none⟩
  | m :: ms => ofModules args env settings (m :: ms)

end Plan

/-- How the paths of a batch are listed. -/
def announce (dryRun : Bool) (path : String) : String :=
  (if dryRun then "  Would write: " else "  Generated: ") ++ path

namespace Step

/-- Performs steps in order, up to the first batch that cannot be written. -/
def performAll (dryRun : Bool) (cwd root : String) (t : FileTree) : List Step → Outcome
  | [] => ⟨[], t, none⟩
  | .say lines :: rest =>
    let o := performAll dryRun cwd root t rest
    { o with lines := lines ++ o.lines }
  | .emit batch :: rest =>
    if dryRun then
      let o := performAll dryRun cwd root t rest
      { o with lines := (batch.map fun a ↦ announce true (Path.join root a.path)) ++ o.lines }
    else
      match t.writeBatch cwd root batch with
      | (t, .error cause) => ⟨[], t, some (.io cause)⟩
      | (t, .ok paths) =>
        let o := performAll dryRun cwd root t rest
        { o with lines := paths.map (announce false) ++ o.lines }

end Step

namespace Plan

/-- Performs a plan. -/
def perform (p : Plan) (dryRun : Bool) (cwd root : String) (t : FileTree) : Outcome :=
  let o := Step.performAll dryRun cwd root t p.steps
  { o with failure := o.failure.or p.failure }

end Plan

/-- The configuration at a path. -/
def readConfig (t : FileTree) (cwd path : String) : Except Failure Json :=
  match t.file? cwd path with
  | none => .error (.configUnreadable .refused)
  | some contents =>
    match contents.read with
    | .error cause => .error (.configUnreadable cause)
    | .ok text => (Jsonc.parse text.toList).mapError .invalidJson

/-- What is known once everything is read. -/
structure Inputs where
  settings : RunSettings
  configPath : String
  config : Except Failure Json

/-- Finds the settings and the configuration, and reads them. -/
def readInputs (args : Arguments) (env : Environment) (t : FileTree) : Except Failure Inputs := do
  let file ← Settings.load t env.cwd
  let path ← env.locateConfig t args.configPath
  return ⟨RunSettings.merge args (file.getD {}), path, readConfig t env.cwd path⟩

/-- What is said before a configuration is read. -/
def readingLine (path : String) : String :=
  "Reading Waybar config: " ++ path

/-- The whole run. -/
def run (args : Arguments) (env : Environment) (t : FileTree) : Outcome :=
  match readInputs args env t with
  | .error f => ⟨[], t, some f⟩
  | .ok inputs =>
    let reading := readingLine inputs.configPath
    match inputs.config with
    | .error f => ⟨[reading], t, some f⟩
    | .ok config =>
      let plan := Plan.ofConfig args env inputs.settings config
      let o := plan.perform args.dryRun env.cwd inputs.settings.outputDir t
      { o with lines := reading :: o.lines }

/-- What a run has printed, as one text: a line feed is put behind each entry, and one inside an
entry stays. -/
def Outcome.stdout (o : Outcome) : String :=
  String.join (o.lines.map (· ++ "\n"))

end BarBridge
