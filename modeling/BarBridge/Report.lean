import BarBridge.Module.Members
import BarBridge.Module.Name

/-!
# Conversion reports

A report tells the user how one module was converted: what did not carry over exactly, and what each
setting became. A module without such notes is converted in full. Notes and conversions are values,
each with one wording.
-/

namespace BarBridge

/-- Behaviour that did not carry over exactly. -/
inductive Note where
  | signal (number : Int)
  | signalPolled (seconds : UInt64)
  | intervalDefaulted (seconds : UInt64)
  | streaming
  | format (format : String)
  | icons (count : Nat)
  | markupEscaped
  | minLength (length : UInt32)
  | restart (seconds : UInt64)
  | nameReplaced (stem : String)
  deriving DecidableEq, Repr

/-- What a setting became. -/
inductive Conversion where
  | exec (preview : String)
  | polled (seconds : UInt64)
  | streamed
  | leftClick
  | rightClick
  | middleClick
  | wheel
  deriving DecidableEq, Repr

structure Report where
  title : String
  source : String
  notes : List Note
  converted : List Conversion
  deriving DecidableEq, Repr

/-- The wording of a note. -/
def Note.message : Note → String
  | signal n => s!"signal: {n} (Noctalia uses polling/streaming instead)"
  | signalPolled s => s!"signal: polling interval set to {s}s"
  | intervalDefaulted s => s!"interval: defaulted to {s}s (Waybar default)"
  | streaming => "interval: once (treated as streaming in Noctalia)"
  | format f => s!"format: '{f}' (converted via formatter)"
  | icons n => s!"format-icons: {n} icons (applied when possible)"
  | markupEscaped => "escape: true (Pango markup escaping not directly supported)"
  | minLength n => s!"min-length: {n} (not directly supported, use CSS/styling)"
  | restart s => s!"restart-interval: {s} (plugins only)"
  | nameReplaced stem => s!"name: written as `{stem}`"

/-- The wording of a conversion. -/
def Conversion.message : Conversion → String
  | exec preview => s!"exec: {preview}"
  | polled s => s!"interval: {s}s -> {milliseconds s}ms"
  | streamed => "mode: streaming/once"
  | leftClick => "on-click -> leftClickExec"
  | rightClick => "on-click-right -> rightClickExec"
  | middleClick => "on-click-middle -> middleClickExec"
  | wheel => "scroll handlers -> wheelUpExec/wheelDownExec"

namespace Report

/-- The number of characters of a command that are shown. -/
def previewLength : Nat := 50

/-- The beginning of a command, with dots where something was cut off. -/
def preview (exec : String) : String :=
  let chars := exec.toList
  if previewLength < chars.length then String.ofList (chars.take previewLength ++ ['.', '.', '.'])
  else exec

/-- A list of one element where a condition holds. -/
def noteIf {α : Type} (b : Bool) (a : α) : List α :=
  if b then [a] else []

/-- What is noted about the interval. A default is noted as the options state it. -/
def intervalNotes (m : CustomModule) (options : Options) : List Note :=
  (if m.interval.isSignalled then [.signalPolled m.interval.seconds]
    else noteIf m.interval.isDefaulted (.intervalDefaulted options.defaultInterval)) ++
  noteIf m.interval.isStreaming .streaming

/-- What did not carry over exactly. -/
def notesOf (m : CustomModule) (options : Options) : List Note :=
  ((m.signal.filter (· ≠ 0)).map .signal).toList ++
  intervalNotes m options ++
  noteIf m.hasCustomFormat (.format m.format) ++
  noteIf (!m.icons.isEmpty) (.icons m.icons.length) ++
  noteIf m.escapeMarkup .markupEscaped ++
  (m.minLength.map .minLength).toList ++
  ((m.restartInterval.filter (0 < ·)).map .restart).toList ++
  noteIf (isReplaced m.name) (.nameReplaced (fileStem m.name))

/-- What became of the interval. -/
def scheduled : Interval → Conversion
  | .once => .streamed
  | .poll seconds _ => .polled seconds

/-- What each setting became. -/
def convertedOf (m : CustomModule) : List Conversion :=
  noteIf (m.exec != "") (.exec (preview m.exec)) ++
  [scheduled m.interval] ++
  noteIf m.onClick.isSome .leftClick ++
  noteIf m.onClickRight.isSome .rightClick ++
  noteIf m.onClickMiddle.isSome .middleClick ++
  noteIf m.hasScrollHandlers .wheel

/-- The report on a module. -/
def ofModule (m : CustomModule) (options : Options) : Report where
  title := "custom/" ++ m.name
  source := m.source
  notes := notesOf m options
  converted := convertedOf m

/-- Whether everything carried over. -/
def isFull (r : Report) : Bool :=
  r.notes.isEmpty

end Report

end BarBridge
