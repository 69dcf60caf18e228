import BarBridge.Files.Tree
import BarBridge.Settings.Basic

/-!
# Finding the files to read

The settings file is looked for in the working directory under three names, the first that is a file
being taken; there need not be one. The bar configuration is the file named on the command line, or
the first of the places where the bar itself would look: below the user's configuration directory,
then system-wide.
-/

namespace BarBridge

/-- What a run takes from the process it runs in. -/
structure Environment where
  /-- The working directory, an absolute path. -/
  cwd : String
  home : Option String
  xdgConfigHome : Option String
  deriving DecidableEq, Repr

namespace Settings

/-- The names of a settings file. -/
def candidates : List String :=
  ["wayconv.toml", ".wayconv.toml", ".config/wayconv.toml"]

/-- The name of the settings file of the working directory. -/
def find? (t : FileTree) (cwd : String) : Option String :=
  candidates.find? fun name ↦ t.isFile cwd (Path.join cwd name)

/-- The settings of the working directory, if there is a settings file. -/
def load (t : FileTree) (cwd : String) : Except Failure (Option Settings) :=
  match candidates.findSome? fun name ↦ t.file? cwd (Path.join cwd name) with
  | none => .ok none
  | some contents =>
    match contents.read with
    | .ok text => (parse text).map some
    | .error cause => .error (.io cause)

end Settings

namespace Environment

/-- The user's configuration directory. A stated one counts only if it is absolute. -/
def configDir? (env : Environment) : Option String :=
  match env.xdgConfigHome with
  | some dir =>
    if Path.isAbsolute dir then some dir else env.home.map (Path.join · ".config")
  | none => env.home.map (Path.join · ".config")

/-- The places of a bar configuration, the first that is a file being taken. -/
def configCandidates (env : Environment) : List String :=
  (match env.configDir? with
    | some dir => [Path.join dir "waybar/config", Path.join dir "waybar/config.jsonc"]
    | none => []) ++ ["/etc/xdg/waybar/config"]

/-- The path of the bar configuration, which is a file. -/
def locateConfig (env : Environment) (t : FileTree) (stated : Option String) :
    Except Failure String :=
  match stated with
  | some path => if t.isFile env.cwd path then .ok path else .error (.configMissing path)
  | none =>
    match env.configCandidates.find? (t.isFile env.cwd) with
    | some path => .ok path
    | none => .error .configNotFound

end Environment

end BarBridge
