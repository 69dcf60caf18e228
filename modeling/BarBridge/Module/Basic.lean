import BarBridge.Interval

/-!
# Custom modules

A bar shows the output of a command of the user's choosing in a custom module. `CustomModule` is
such a module with every default decided, so that nothing downstream asks again whether a setting
was given, had the wrong type or was empty.
-/

namespace BarBridge

/-- How the output of a command is read. -/
inductive OutputForm where
  /-- As the text to show. -/
  | plain
  /-- As an object with the text, a tooltip and more. -/
  | json
  deriving DecidableEq, Repr

structure CustomModule where
  /-- The name, unique among the modules of a configuration. -/
  name : String
  /-- The section of the configuration that holds the module. -/
  source : String
  exec : String
  /-- The command that decides whether `exec` runs; empty for none. -/
  execIf : String
  interval : Interval
  signal : Option Int
  format : String
  icons : List String
  output : OutputForm
  maxLength : Option UInt32
  minLength : Option UInt32
  tooltip : Bool
  onClick : Option String
  onClickRight : Option String
  onClickMiddle : Option String
  onScrollUp : Option String
  onScrollDown : Option String
  escapeMarkup : Bool
  /-- Whether the text is refreshed after a click or scroll. -/
  execOnEvent : Bool
  restartInterval : Option UInt64
  deriving DecidableEq, Repr

namespace CustomModule

/-- The format that shows the output as it is. -/
def plainFormat : String := "\x7b\x7d"

/-- The same, with the placeholder named. -/
def namedFormat : String := "\x7btext\x7d"

/-- Whether the format does more than show the output as it is. -/
def hasCustomFormat (m : CustomModule) : Bool :=
  m.format != plainFormat && m.format != namedFormat

def isJson (m : CustomModule) : Bool :=
  m.output == .json

def hasScrollHandlers (m : CustomModule) : Bool :=
  m.onScrollUp.isSome || m.onScrollDown.isSome

end CustomModule

end BarBridge
