import BarBridge.Proofs.Artifact.Agreement

/-!
# The interval that is announced

A module that states no interval gets one, and the user is told of it twice, by a warning about the
widget and by a note in the report. An interval that stands in for a signal is announced from the
module. A default is announced from the options, and that is not the same number: the module holds
it capped and the options do not, so beyond the cap more seconds are announced than are used
(`announced_interval`). The manifest takes the interval of a streaming module from the options too,
and goes beyond the cap where the options do.
-/

namespace BarBridge

open Plugin

/-! ## What is announced -/

/-- What is announced of the interval of a module, in the warnings about its widget and in the notes
of its report. The lines are known by the words that they begin with. -/
structure Announces (m : CustomModule) (options : Options) (warnings notes : List String) :
    Prop where
  /-- A default is announced as the options state it. -/
  defaultWarning : ∀ l, l ∈ warnings ∧ "interval not set; defaulting to ".toList <+: l.toList ↔
    m.interval.isDefaulted = true ∧
      l = s!"interval not set; defaulting to {options.defaultInterval.toNat}s (Waybar default)."
  defaultNote : ∀ l, l ∈ notes ∧ "interval: defaulted to ".toList <+: l.toList ↔
    m.interval.isDefaulted = true ∧
      l = s!"interval: defaulted to {options.defaultInterval.toNat}s (Waybar default)"
  /-- What stands in for a signal is announced as the module has it. -/
  signalWarning : ∀ l,
    l ∈ warnings ∧ "signal provided; polling interval set to ".toList <+: l.toList ↔
      m.interval.isSignalled = true ∧
        l = s!"signal provided; polling interval set to {m.interval.seconds.toNat}s."
  signalNote : ∀ l, l ∈ notes ∧ "signal: polling interval set to ".toList <+: l.toList ↔
    m.interval.isSignalled = true ∧
      l = s!"signal: polling interval set to {m.interval.seconds.toNat}s"

theorem announces (m : CustomModule) (options : Options) :
    Announces m options
      ((Widget.warnings m (Command.ofModule m) options.defaultInterval).map (·.message))
      ((Report.notesOf m options).map (·.message)) where
  defaultWarning := mem_lines_and_opens_iff Warning.opens_default_iff
    fun _ ↦ Widget.mem_warnings_iff m options.defaultInterval _
  defaultNote := mem_lines_and_opens_iff Note.opens_default_iff
    fun _ ↦ Report.mem_notesOf_iff m options _
  signalWarning := mem_lines_and_opens_iff Warning.opens_signal_iff
    fun _ ↦ Widget.mem_warnings_iff m options.defaultInterval _
  signalNote := mem_lines_and_opens_iff Note.opens_signal_iff
    fun _ ↦ Report.mem_notesOf_iff m options _

/-! ## What is used -/

theorem manifestDefault?_interval (m : CustomModule) (options : Options) :
    manifestDefault? (manifestText m options) "interval" =
      some (.number (.int (if m.interval.isStreaming then options.defaultInterval.toNat
        else m.interval.seconds.toNat : Nat))) := by
  have hdefaults : (defaults m options.defaultInterval).interval =
      if m.interval.isStreaming then options.defaultInterval else m.interval.seconds :=
    rfl
  have hmanifest : manifestDefault? (manifestText m options) "interval" =
      some (.number (.int (defaults m options.defaultInterval).interval.toNat)) :=
    manifestDefault?_text m options "interval"
  rw [hmanifest, hdefaults, apply_ite UInt64.toNat]

/-- **What is announced is what is used, up to the cap.** Of every module that is read, the interval
is announced by these lines. What stands in for a signal is announced as the module has it, and this
is what is used. A default is announced as the options state it, and this is what is used exactly if
the options stay within the cap, in seconds and, in the widget, in milliseconds. The manifest of a
module that polls has its seconds, which are within the cap; that of a streaming module has the
default as the options state it. -/
theorem announced_interval (name source : String) (members : List (String × Json))
    (options : Options) :
    let m := CustomModule.ofMembers name source members options
    let w := Widget.ofModule m (Command.ofModule m)
    Announces m options
        ((Widget.warnings m (Command.ofModule m) options.defaultInterval).map (·.message))
        ((Report.ofModule m options).notes.map (·.message)) ∧
      (m.interval.isDefaulted = true →
        (options.defaultInterval.toNat = m.interval.seconds.toNat ↔
          options.defaultInterval.toNat ≤ secondsLimit) ∧
        (1000 * options.defaultInterval.toNat = (w.textIntervalMs.getD 0).toNat ↔
          options.defaultInterval.toNat ≤ secondsLimit)) ∧
      ∃ plugin manifest main bar settings texts readme,
        ofModule m options.defaultInterval = .ok plugin ∧
        plugin.files = [⟨directory m ++ "manifest.json", manifest⟩,
          ⟨directory m ++ "Main.qml", main⟩, ⟨directory m ++ "BarWidget.qml", bar⟩,
          ⟨directory m ++ "Settings.qml", settings⟩, ⟨directory m ++ "i18n/en.json", texts⟩,
          ⟨directory m ++ "README.md", readme⟩] ∧
        ∃ seconds : Nat, manifestDefault? manifest "interval" = some (.number (.int seconds)) ∧
          (m.interval.isStreaming = false →
            seconds = m.interval.seconds.toNat ∧ seconds ≤ secondsLimit) ∧
          (m.interval.isStreaming = true → seconds = options.defaultInterval.toNat) := by
  intro m w
  have hschedule := schedule_ofMembers name source members options
  refine ⟨announces m options, ?_, ?_⟩
  · intro hdefaulted
    have hseconds := (hschedule.of_isDefaulted hdefaulted).1
    have hms : (w.textIntervalMs.getD 0).toNat = 1000 * m.interval.seconds.toNat :=
      Widget.toNat_intervalMs hschedule.seconds_le
    -- The module has the smaller one of the default and the cap.
    rw [hms, hseconds]
    omega
  · obtain ⟨main, bar, settings, readmeText, hmain, hbar, hsettings, hreadme, -⟩ :=
      exists_renders m options.defaultInterval
    refine ⟨_, _, _, _, _, _, _, ofModule_eq hmain hbar hsettings hreadme, rfl, _,
      manifestDefault?_interval m options, ?_, ?_⟩
    · intro hpolls
      rw [if_neg (by rw [hpolls]; decide)]
      exact ⟨rfl, hschedule.seconds_le⟩
    · intro hstreams
      exact if_pos hstreams

/-- With the largest of defaults, a module that states no interval is announced to run a thousand
times less often than it does, and the manifest of a streaming module goes beyond the cap. -/
theorem announced_beyond_cap :
    let options : Options := { defaultInterval := 18446744073709551615 }
    let m := CustomModule.ofMembers "clock" "config" [("exec", .string "date")] options
    let streaming := CustomModule.ofMembers "clock" "config"
      [("exec", .string "date"), ("interval", .string "once")] options
    m.interval.isDefaulted = true ∧ m.interval.seconds.toNat = 18446744073709551 ∧
      "interval not set; defaulting to 18446744073709551615s (Waybar default)." ∈
        (Widget.warnings m (Command.ofModule m) options.defaultInterval).map (·.message) ∧
      "interval: defaulted to 18446744073709551615s (Waybar default)" ∈
        (Report.ofModule m options).notes.map (·.message) ∧
      streaming.interval.isStreaming = true ∧
      manifestDefault? (manifestText streaming options) "interval" =
        some (.number (.int 18446744073709551615)) ∧
      secondsLimit < 18446744073709551615 := by
  intro options m streaming
  refine ⟨by decide +kernel, by decide +kernel, by decide +kernel, by decide +kernel,
    by decide +kernel, ?_, by decide⟩
  exact manifestDefault?_interval streaming options

end BarBridge
