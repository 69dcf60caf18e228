import BarBridge.Report
import BarBridge.Widget.Basic

/-!
# What warnings and notes tell of

Warnings about a widget are gathered from the treatment of the command, the interval, the restart
and the name; the notes of a report are gathered in another place and in another order. Either list
is described here by its members: `Warning.AppliesTo` and `Note.AppliesTo` say of each what the
module is like if it is there, and nothing of where it comes from. A statement about the two lists
is then a statement about the module.
-/

namespace BarBridge

/-! ## Warnings

The list is put together from parts, each of which is there or not by one condition. Once membership
has been taken through the parts, a warning is told from the others by what it is. -/

/-- What is so if a module's widget is converted with a warning. -/
def Warning.AppliesTo (m : CustomModule) (default : UInt64) : Warning → Prop
  | formatFiltered => Treatment.ofModule m = .plainFilter
  | iconsIgnored => Treatment.ofModule m = .passthrough ∧ m.icons ≠ []
  | streamHeldBack => (Treatment.ofModule m).isFilter = true ∧ m.interval.isStreaming = true
  | signalPolled seconds => m.interval.isSignalled = true ∧ seconds = m.interval.seconds
  | intervalDefaulted seconds => m.interval.isDefaulted = true ∧ seconds = default
  | restartUnsupported => m.restartInterval.isSome = true
  | nameReplaced name stem => isReplaced m.name = true ∧ name = m.name ∧ stem = fileStem m.name

theorem Treatment.mem_warnings_iff (m : CustomModule) (t : Treatment) (w : Warning) :
    w ∈ t.warnings m ↔
      w = .formatFiltered ∧ t = .plainFilter ∨
      w = .iconsIgnored ∧ t = .passthrough ∧ m.icons ≠ [] ∨
      w = .streamHeldBack ∧ t.isFilter = true ∧ m.interval.isStreaming = true := by
  unfold warnings
  cases t with
  | passthrough => by_cases hicons : m.icons = [] <;> simp [isFilter, hicons]
  | _ => simp [isFilter, and_comm]

theorem Widget.mem_intervalWarnings_iff (m : CustomModule) (default : UInt64) (w : Warning) :
    w ∈ intervalWarnings m default ↔
      w = .signalPolled m.interval.seconds ∧ m.interval.isSignalled = true ∨
      w = .intervalDefaulted default ∧ m.interval.isDefaulted = true := by
  rw [intervalWarnings]
  cases m.interval with
  | once => simp [Interval.isSignalled, Interval.isDefaulted]
  | poll seconds origin =>
    cases origin <;> simp [Interval.isSignalled, Interval.isDefaulted]

/-- **Each warning tells of the module.** -/
theorem Widget.mem_warnings_iff (m : CustomModule) (default : UInt64) (w : Warning) :
    w ∈ warnings m (Command.ofModule m) default ↔ w.AppliesTo m default := by
  have htreatment : (Command.ofModule m).warnings = (Treatment.ofModule m).warnings m := rfl
  rw [warnings, List.mem_append, List.mem_append, List.mem_append, htreatment,
    Treatment.mem_warnings_iff, mem_intervalWarnings_iff, nameWarnings]
  cases w <;> simp [Warning.AppliesTo, and_comm]

/-! ## Notes -/

/-- What is so if a report has a note. -/
def Note.AppliesTo (m : CustomModule) (options : Options) : Note → Prop
  | signal number => m.signal = some number ∧ number ≠ 0
  | signalPolled seconds => m.interval.isSignalled = true ∧ seconds = m.interval.seconds
  | intervalDefaulted seconds =>
    m.interval.isDefaulted = true ∧ seconds = options.defaultInterval
  | streaming => m.interval.isStreaming = true
  | format text => m.hasCustomFormat = true ∧ text = m.format
  | icons count => m.icons ≠ [] ∧ count = m.icons.length
  | markupEscaped => m.escapeMarkup = true
  | minLength length => m.minLength = some length
  | restart seconds => m.restartInterval = some seconds ∧ 0 < seconds
  | nameReplaced stem => isReplaced m.name = true ∧ stem = fileStem m.name

theorem Report.mem_noteIf_iff {α : Type} (b : Bool) (a a' : α) :
    a' ∈ noteIf b a ↔ b = true ∧ a' = a := by
  rw [noteIf]
  cases b <;> simp

theorem Report.mem_intervalNotes_iff (m : CustomModule) (options : Options) (note : Note) :
    note ∈ intervalNotes m options ↔
      note = .signalPolled m.interval.seconds ∧ m.interval.isSignalled = true ∨
      note = .intervalDefaulted options.defaultInterval ∧ m.interval.isDefaulted = true ∨
      note = .streaming ∧ m.interval.isStreaming = true := by
  rw [intervalNotes, List.mem_append]
  cases m.interval with
  | once => simp [mem_noteIf_iff, Interval.isSignalled, Interval.isDefaulted, Interval.isStreaming]
  | poll seconds origin =>
    cases origin <;>
      simp [mem_noteIf_iff, Interval.isSignalled, Interval.isDefaulted, Interval.isStreaming]

/-- **Each note tells of the module.** -/
theorem Report.mem_notesOf_iff (m : CustomModule) (options : Options) (note : Note) :
    note ∈ notesOf m options ↔ note.AppliesTo m options := by
  simp only [notesOf, List.mem_append, mem_noteIf_iff, mem_intervalNotes_iff, Option.mem_toList,
    Option.map_eq_some_iff, Option.filter_eq_some_iff]
  cases note <;> simp [Note.AppliesTo, and_comm]

end BarBridge
