/-!
# Conversion options

The two numbers a conversion depends on, and the kinds of artifacts it can produce. Both may come
from the command line, from a settings file or from here.
-/

namespace BarBridge

structure Options where
  /-- Seconds between runs of a module that states no usable interval. -/
  defaultInterval : UInt64 := 60
  /-- Seconds between runs of a module that waits for a signal and states no usable interval; zero
  leaves such a module to the default. -/
  signalPollInterval : UInt64 := 2
  deriving DecidableEq, Repr

/-- Which artifacts a run produces. -/
inductive ArtifactMode where
  | widgets
  | plugins
  | both
  deriving DecidableEq, Repr

namespace ArtifactMode

def includesWidgets : ArtifactMode → Bool
  | widgets | both => true
  | plugins => false

def includesPlugins : ArtifactMode → Bool
  | plugins | both => true
  | widgets => false

/-- The mode of a name; names are lower case. -/
def ofName? : String → Option ArtifactMode
  | "widgets" => some widgets
  | "plugins" => some plugins
  | "both" => some both
  | _ => none

def name : ArtifactMode → String
  | widgets => "widgets"
  | plugins => "plugins"
  | both => "both"

end ArtifactMode

end BarBridge
