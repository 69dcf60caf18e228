import BarBridge.Failure
import BarBridge.Options
import BarBridge.Toml.Reader

/-!
# Settings

A settings file may state any of four settings: the two intervals, the output directory and the
mode. A key that is none of them, or a value of the wrong kind, makes the whole file invalid. What
the command line states takes precedence over the file, and the file over the built-in defaults.

The mode is a choice among names, and a choice may be stated in two ways: by the name as a string,
or by a table in which the name is the only key and has nothing in it, `mode.both = []`.
-/

namespace BarBridge

structure Settings where
  defaultInterval : Option UInt64 := none
  signalPollInterval : Option UInt64 := none
  outputDir : Option String := none
  mode : Option ArtifactMode := none
  deriving DecidableEq, Repr

namespace Settings

/-- A number of seconds: an integer of 64 bits without a sign. -/
def seconds? : Toml.Value → Option UInt64
  | .integer n => if 0 ≤ n ∧ n < UInt64.size then some (UInt64.ofNat n.toNat) else none
  | _ => none

def string? : Toml.Value → Option String
  | .string s => some s
  | _ => none

/-- The name that a choice is stated by. -/
def choice? : Toml.Value → Option String
  | .string name => some name
  | .table _ [(name, .array [])] => some name
  | .table _ [(name, .table _ [])] => some name
  | _ => none

/-- Settings with one more entry, or `none` if it is none of the four or has the wrong kind. -/
def add? (s : Settings) (entry : String × Toml.Value) : Option Settings :=
  match entry.1 with
  | "default_interval" => (seconds? entry.2).map fun n ↦ { s with defaultInterval := some n }
  | "signal_poll_interval" =>
    (seconds? entry.2).map fun n ↦ { s with signalPollInterval := some n }
  | "output_dir" => (string? entry.2).map fun d ↦ { s with outputDir := some d }
  | "mode" =>
    (choice? entry.2 >>= ArtifactMode.ofName?).map fun m ↦ { s with mode := some m }
  | _ => none

/-- The settings that a file states. -/
def parse (text : String) : Except Failure Settings :=
  match Toml.parse text.toList >>= fun members ↦ members.foldlM add? {} with
  | some s => .ok s
  | none => .error .settingsMalformed

/-- The options of a run, given what the command line states. -/
def options (s : Settings) (defaultInterval signalPollInterval : Option UInt64) : Options :=
  let builtIn : Options := {}
  { defaultInterval := (defaultInterval.or s.defaultInterval).getD builtIn.defaultInterval
    signalPollInterval :=
      (signalPollInterval.or s.signalPollInterval).getD builtIn.signalPollInterval }

/-- The mode of a run for which the command line states none. -/
def effectiveMode (s : Settings) : ArtifactMode :=
  s.mode.getD .widgets

end Settings

end BarBridge
