import BarBridge.Command
import BarBridge.Module.Name

/-!
# Widgets

A widget is a button on the bar: a command that gives its text, commands for the clicks and the
wheel, and a limit to the length of the text. It is scheduled in one of two ways, as a stream or
every so many milliseconds. `Widget.ofModule` projects a module onto a widget and collects what is
lost on the way.
-/

namespace BarBridge

/-- A command run by a click or the wheel. -/
structure Action where
  exec : String
  /-- Whether the text is refreshed afterwards. -/
  updateText : Bool
  deriving DecidableEq, Repr

/-- The longest text, along a horizontal and a vertical bar. -/
structure TextLimit where
  horizontal : UInt32
  vertical : UInt32
  deriving DecidableEq, Repr

structure Widget where
  textCommand : String
  textStream : Bool
  textIntervalMs : Option UInt64
  parseJson : Bool
  leftClick : Option Action
  rightClick : Option Action
  middleClick : Option Action
  wheelUp : Option Action
  wheelDown : Option Action
  maxText : Option TextLimit
  deriving DecidableEq, Repr

namespace Widget

/-- The longest text on a vertical bar. -/
def verticalLimit : UInt32 := 10

/-- The limits of a module's text. -/
def limit (length : UInt32) : TextLimit :=
  ⟨length, min length verticalLimit⟩

/-- Milliseconds between runs; a widget has none where there would be zero. -/
def intervalMs : Interval → Option UInt64
  | .once => none
  | .poll seconds _ =>
    if milliseconds seconds = 0 then none else some (milliseconds seconds)

/-- The widget that shows a module, given its command. -/
def ofModule (m : CustomModule) (command : Command) : Widget :=
  let action (exec : String) : Action := ⟨exec, m.execOnEvent⟩
  { textCommand := command.line
    textStream := m.interval.isStreaming
    textIntervalMs := intervalMs m.interval
    parseJson := command.parsesJson
    leftClick := m.onClick.map action
    rightClick := m.onClickRight.map action
    middleClick := m.onClickMiddle.map action
    wheelUp := m.onScrollUp.map action
    wheelDown := m.onScrollDown.map action
    maxText := m.maxLength.map limit }

/-- What is announced about the interval. A default is announced as the options state it. -/
def intervalWarnings (m : CustomModule) (defaultInterval : UInt64) : List Warning :=
  if m.interval.isSignalled then [.signalPolled m.interval.seconds]
  else if m.interval.isDefaulted then [.intervalDefaulted defaultInterval]
  else []

/-- What is announced about a name. -/
def nameWarnings (name : String) : List Warning :=
  if isReplaced name then [.nameReplaced name (fileStem name)] else []

/-- What the widget of a module does differently from the module. -/
def warnings (m : CustomModule) (command : Command) (defaultInterval : UInt64) : List Warning :=
  command.warnings ++ intervalWarnings m defaultInterval ++
    (if m.restartInterval.isSome then [.restartUnsupported] else []) ++ nameWarnings m.name

end Widget

end BarBridge
