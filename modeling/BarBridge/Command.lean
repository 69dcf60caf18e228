import BarBridge.Command.Filter
import BarBridge.Module.Basic
import BarBridge.Warning

/-!
# The command of a converted module

The bar itself applies format and icons to the output of a module; a widget does not.
`Command.ofModule` decides which of five treatments a command needs, and builds the command line
that shows the same text: nothing for a module without a command, a filter where format or icons
have an effect, the command itself otherwise. Every command is then guarded by the module's
condition, if it has one.
-/

namespace BarBridge

/-- What is done to a command. -/
inductive Treatment where
  /-- There is no command. -/
  | none
  /-- Object output is filtered for icons and format. -/
  | jsonFilter
  /-- Object output is handed on. -/
  | jsonPassthrough
  /-- Plain output is filtered for the format. -/
  | plainFilter
  /-- Plain output is handed on. -/
  | passthrough
  deriving DecidableEq, Repr

structure Command where
  treatment : Treatment
  line : String
  warnings : List Warning
  deriving DecidableEq, Repr

namespace Treatment

/-- Whether the output is read as an object. -/
def parsesJson : Treatment → Bool
  | jsonFilter | jsonPassthrough => true
  | _ => false

/-- Whether a filter stands behind the command. -/
def isFilter : Treatment → Bool
  | jsonFilter | plainFilter => true
  | _ => false

/-- The treatment that a module needs; the first rule that applies decides. -/
def ofModule (m : CustomModule) : Treatment :=
  if m.exec = "" then none
  else if m.isJson then
    if !m.icons.isEmpty || m.hasCustomFormat then jsonFilter else jsonPassthrough
  else if m.hasCustomFormat then plainFilter
  else passthrough

/-- The command line of a treatment, before its guard. -/
def apply (m : CustomModule) : Treatment → String
  | none => ""
  | jsonFilter => Filter.json m.exec m.format m.icons
  | plainFilter => Filter.plain m.exec m.format
  | jsonPassthrough | passthrough => m.exec

/-- What a treatment does differently from the bar. -/
def warnings (m : CustomModule) (t : Treatment) : List Warning :=
  (match t with
    | plainFilter => [.formatFiltered]
    | passthrough => if m.icons.isEmpty then [] else [.iconsIgnored]
    | _ => []) ++
  if m.interval.isStreaming && t.isFilter then [.streamHeldBack] else []

end Treatment

namespace Command

/-- Runs a command only where a condition holds. The status is that of the command. -/
def guarded (line condition : String) : String :=
  if condition = "" then line
  else "if " ++ condition ++ "; then " ++ line ++ "; fi"

/-- The command that shows the output of a module as the bar does. -/
def ofModule (m : CustomModule) : Command :=
  let t := Treatment.ofModule m
  { treatment := t
    line := if t = .none then "" else guarded (t.apply m) m.execIf
    warnings := t.warnings m }

/-- Whether the output is read as an object. -/
def parsesJson (c : Command) : Bool :=
  c.treatment.parsesJson

end Command

end BarBridge
