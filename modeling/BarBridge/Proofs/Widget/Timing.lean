import BarBridge.Proofs.Module.WellFormed
import BarBridge.Widget.Basic

/-!
# When a widget runs its command

A widget that neither reads a stream nor has an interval would never show anything, and one with
both would have to choose. `widget_runs_one_way` excludes the two and says which of the ways a
widget takes: the stream exactly if the module asks for one, and otherwise the seconds of the module
in milliseconds, of which there are a thousand at least.

An interval of no milliseconds is left out of a widget. Only a default of zero seconds can lead to
one, because stated seconds are at least one and a zero for signals turns polling for them off.
-/

namespace BarBridge

theorem Widget.intervalMs_eq {i : Interval} (h : i.seconds.toNat ≤ secondsLimit) :
    intervalMs i = if i.seconds = 0 then none else some (milliseconds i.seconds) := by
  cases i with
  | once => rfl
  | poll seconds origin =>
    have hexact : (milliseconds seconds).toNat = 1000 * seconds.toNat := toNat_milliseconds_of_le h
    -- Nothing is lost below the cap, so only zero seconds become zero milliseconds.
    have hzero : milliseconds seconds = 0 ↔ seconds = 0 := by
      rw [← toNat_eq_zero_iff, hexact, ← toNat_eq_zero_iff]
      omega
    exact if_congr hzero rfl rfl

theorem Widget.toNat_intervalMs {i : Interval} (h : i.seconds.toNat ≤ secondsLimit) :
    ((intervalMs i).getD 0).toNat = 1000 * i.seconds.toNat := by
  rw [intervalMs_eq h]
  split
  · next hzero =>
    rw [hzero]
    rfl
  · exact toNat_milliseconds_of_le h

/-- A module that polls does so after one second or more, unless the default is zero. -/
theorem Schedule.seconds_ne_zero {raw : Option Json} {signal : Option Int} {options : Options}
    {i : Interval} (h : Schedule raw signal options i) (hdefault : 0 < options.defaultInterval)
    (hpolls : i.isStreaming = false) : i.seconds ≠ 0 := by
  cases h with
  | stream => contradiction
  | stated _ _ _ hpos =>
    rw [Interval.seconds, Ne, capSeconds_eq_zero_iff]
    omega
  | signalled _ _ hpoll =>
    rw [Interval.seconds, Ne, capSeconds_eq_zero_iff, toNat_eq_zero_iff]
    exact hpoll
  | defaulted =>
    rw [Interval.seconds, Ne, capSeconds_eq_zero_iff, toNat_eq_zero_iff]
    exact UInt64.pos_iff_ne_zero.mp hdefault

/-- **A widget runs its command in one way.** With a default other than zero, the widget of any
module either reads a stream or has an interval, and not both. Its interval is a thousand times the
seconds of the module. It reads a stream exactly if the module has an interval that is the word
`once` or a number less than one. -/
theorem widget_runs_one_way (name source : String) (members : List (String × Json))
    (options : Options) (hdefault : 0 < options.defaultInterval) :
    let m := CustomModule.ofMembers name source members options
    let w := Widget.ofModule m (Command.ofModule m)
    (w.textStream = true ↔ w.textIntervalMs = none) ∧
      (∀ ms, w.textIntervalMs = some ms →
        ms.toNat = 1000 * m.interval.seconds.toNat ∧ 1000 ≤ ms.toNat) ∧
      (w.textStream = true ↔ ∃ v, members.lookup "interval" = some v ∧ v.AsksForStream) := by
  intro m w
  have hschedule := schedule_ofMembers name source members options
  have hms : w.textIntervalMs =
      if m.interval.seconds = 0 then none else some (milliseconds m.interval.seconds) :=
    Widget.intervalMs_eq hschedule.seconds_le
  have hstream : w.textStream = true ↔ m.interval.seconds = 0 := by
    constructor
    · intro h
      exact (Interval.of_isStreaming h).1
    · intro hzero
      by_contra hpolls
      exact hschedule.seconds_ne_zero hdefault (eq_false_of_ne_true hpolls) hzero
  refine ⟨?_, ?_, hschedule.isStreaming_iff⟩
  · rw [hstream, hms]
    constructor
    · intro hzero
      exact if_pos hzero
    · intro hnone
      by_contra hne
      rw [if_neg hne] at hnone
      contradiction
  · intro ms hsome
    have hne : m.interval.seconds ≠ 0 := by
      intro hzero
      rw [hms, if_pos hzero] at hsome
      contradiction
    rw [hms, if_neg hne] at hsome
    obtain rfl := Option.some.inj hsome
    have hexact : (milliseconds m.interval.seconds).toNat = 1000 * m.interval.seconds.toNat :=
      toNat_milliseconds_of_le hschedule.seconds_le
    have hpos : m.interval.seconds.toNat ≠ 0 := mt (toNat_eq_zero_iff _).mp hne
    exact ⟨hexact, by omega⟩

/-- A number with a fraction, in a string between blanks. -/
theorem widget_runs_one_way_fraction :
    let members := [("exec", Json.string "date"), ("interval", .string " 1.9\n")]
    let m := CustomModule.ofMembers "clock" "config" members {}
    let w := Widget.ofModule m (Command.ofModule m)
    0 < ({} : Options).defaultInterval ∧ w.textIntervalMs = some 1000 ∧
      1000 = 1000 * m.interval.seconds.toNat ∧ w.textStream = false ∧
      ¬∃ v, members.lookup "interval" = some v ∧ v.AsksForStream := by
  intro members m w
  have hdefault : 0 < ({} : Options).defaultInterval := by decide
  obtain ⟨-, hms, hstream⟩ := widget_runs_one_way "clock" "config" members {} hdefault
  have hw : w.textIntervalMs = some 1000 := by decide +kernel
  have hpolls : w.textStream = false := by decide +kernel
  refine ⟨hdefault, hw, (hms 1000 hw).1, hpolls, ?_⟩
  intro hasks
  rw [hstream.mpr hasks] at hpolls
  contradiction

end BarBridge
