/-!
# Warnings

What a converted widget does differently from its module, or cannot do at all. A warning is a value;
its wording is given in one place.
-/

namespace BarBridge

inductive Warning where
  /-- The format of a plain text module is applied by a filter. -/
  | formatFiltered
  /-- Icons have no effect on plain text. -/
  | iconsIgnored
  /-- A filter shows nothing until a streaming command ends. -/
  | streamHeldBack
  /-- A polling interval of so many seconds stands in for a signal. -/
  | signalPolled (seconds : UInt64)
  /-- An interval of so many seconds was assumed. -/
  | intervalDefaulted (seconds : UInt64)
  | restartUnsupported
  /-- A name that could not be used as a file name, and its replacement. -/
  | nameReplaced (name stem : String)
  deriving DecidableEq, Repr

/-- The wording of a warning. -/
def Warning.message : Warning → String
  | formatFiltered => "Applied format to plain-text output using python wrapper."
  | iconsIgnored =>
    "format-icons provided but return-type is not json; icons cannot be applied."
  | streamHeldBack =>
    "interval is once but output is post-processed; nothing is shown until the command exits."
  | signalPolled seconds => s!"signal provided; polling interval set to {seconds}s."
  | intervalDefaulted seconds => s!"interval not set; defaulting to {seconds}s (Waybar default)."
  | restartUnsupported => "restart-interval is not supported for CustomButton widgets."
  | nameReplaced name stem =>
    s!"module name `{name}` cannot be used as a file name; written as `{stem}`."

end BarBridge
