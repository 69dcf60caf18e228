import BarBridge.CommandLine.Run

/-!
# The command line

The outermost layer: it takes arguments and environment from the process, hands the files that may
be read to the run as a tree, and performs the plan on the disk. What is read, decided and said is
settled in `BarBridge.CommandLine`; here it is only carried out.
-/

namespace BarBridge.Main

/-- How to use the program, in short. -/
def usageText : List String := [
  "Usage: barbridge [OPTIONS] [CONFIG_PATH]",
  "",
  "Options:",
  "  -o, --output-dir <DIR>",
  "  -m, --mode <widgets|plugins|both>",
  "  -v, --verbose",
  "      --default-interval <SECONDS>",
  "      --signal-poll-interval <SECONDS>",
  "      --dry-run",
  "      --no-color",
  "  -h, --help",
  "  -V, --version"]

/-- What is said of a command line that is not run. -/
def usageMessage : Usage → String
  | .unknownArgument => "error: unexpected argument"
  | .invalidValue => "error: a value is missing or not allowed"
  | .invalidNumber => "error: a value is not a number"
  | .unexpectedValue => "error: a switch takes no value"
  | .repeated => "error: an argument is given twice"
  | .help => "\n".intercalate usageText
  | .version => "barbridge 0.1.0"

/-- The contents of a file, if it can be read. -/
def readFile? (path : String) : IO (Option Contents) := do
  try
    return some (Contents.ofBytes (← IO.FS.readBinFile path).toList)
  catch _ =>
    return none

/-- The files that a run may read, as a tree. -/
def snapshot (args : Arguments) (env : Environment) : IO FileTree := do
  let settings := Settings.candidates.map (Path.join env.cwd)
  let configs := args.configPath.toList ++ env.configCandidates
  let mut tree := (FileTree.empty .unbounded).place "/" env.cwd .directory
  for path in settings ++ configs do
    if let some contents ← readFile? path then
      tree := tree.place env.cwd path (.file contents)
  return tree

/-- Writes a batch to the disk and lists what was written. -/
def writeBatch (root : String) (batch : List Artifact) : IO Unit := do
  for a in batch do
    let path := Path.join root a.path
    if Path.parent path ≠ "" then IO.FS.createDirAll (Path.parent path)
    IO.FS.writeFile path a.contents
  for a in batch do
    IO.println (announce false (Path.join root a.path))

/-- Performs a step on the disk. -/
def performStep (dryRun : Bool) (root : String) : Step → IO Unit
  | .say lines => lines.forM IO.println
  | .emit batch =>
    if dryRun then
      batch.forM fun a ↦ IO.println (announce true (Path.join root a.path))
    else writeBatch root batch

/-- Reports what ended a run. -/
def reportFailure (f : Failure) : IO UInt32 := do
  let code :=
    match f.code? with
    | some code => code ++ "\n"
    | none => ""
  let help :=
    match f.help? with
    | some help => "\nhelp: " ++ help
    | none => ""
  IO.eprintln (code ++ "error: " ++ f.message ++ help)
  return 1

/-- Runs with arguments that have been read. -/
def runWith (args : Arguments) : IO UInt32 := do
  let env : Environment := {
    cwd := (← IO.currentDir).toString
    home := ← IO.getEnv "HOME"
    xdgConfigHome := ← IO.getEnv "XDG_CONFIG_HOME" }
  match readInputs args env (← snapshot args env) with
  | .error f => reportFailure f
  | .ok inputs =>
    IO.println (readingLine inputs.configPath)
    match inputs.config with
    | .error f => reportFailure f
    | .ok config =>
      let plan := Plan.ofConfig args env inputs.settings config
      try
        plan.steps.forM (performStep args.dryRun inputs.settings.outputDir)
      catch e =>
        IO.eprintln s!"error: {e}"
        return 1
      match plan.failure with
      | some f => reportFailure f
      | none => return 0

end BarBridge.Main

def main (arguments : List String) : IO UInt32 :=
  match BarBridge.Arguments.parse arguments with
  | .ok args => BarBridge.Main.runWith args
  | .error usage => do
    match usage with
    | .help | .version =>
      IO.println (BarBridge.Main.usageMessage usage)
      return 0
    | _ =>
      IO.eprintln (BarBridge.Main.usageMessage usage)
      return 2
