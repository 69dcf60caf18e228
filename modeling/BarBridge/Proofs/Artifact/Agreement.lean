import BarBridge.Proofs.Artifact.Losses
import BarBridge.Proofs.Artifact.Wording
import BarBridge.Proofs.Command.Guarding
import BarBridge.Proofs.Plugin.Handlers
import BarBridge.Proofs.Widget.Reading
import BarBridge.Proofs.Widget.Timing

/-!
# Widget, plugin and report agree

When a module runs its command, how the output is read, and what a click does is said three times:
in the widget, in the plugin and in the report. Each of the three is made from the module without
regard to the others, and each leaves out something else. Here they are read back and compared
(`emitters_agree`).

That they agree to the millisecond needs two facts about modules that were read from an object. The
seconds are capped so that their milliseconds fit 64 bits, and no handler has an empty command.
-/

namespace BarBridge

open Plugin

/-! ## Modules that were read

A record can hold any seconds, and handlers with an empty command. One that was read from an object
cannot, and `Settled` is as much of this as the agreement rests on. -/

theorem Interval.modeName_poll_ne (s : UInt64) (origin : Origin) :
    (poll s origin).modeName ≠ "once" := by
  rw [modeName]
  decide

/-- What holds of a module that was read from an object. -/
structure CustomModule.Settled (m : CustomModule) : Prop where
  seconds_le : m.interval.seconds.toNat ≤ secondsLimit
  restart_le : (m.restartInterval.getD 0).toNat ≤ secondsLimit
  command_ne : ∀ h ∈ handlers, h.command m ≠ some ""

namespace CustomModule

theorem settled_ofMembers (name source : String) (members : List (String × Json))
    (options : Options) : (ofMembers name source members options).Settled where
  seconds_le := (schedule_ofMembers name source members options).seconds_le
  restart_le := by
    cases hrestart : (ofMembers name source members options).restartInterval with
    | none => exact Nat.zero_le _
    | some s => exact restart_le hrestart
  command_ne := by
    intro h hh
    have hcommand : h.command (ofMembers name source members options) ∈
        handlers.map (·.command (ofMembers name source members options)) :=
      List.mem_map_of_mem hh
    exact handlerCommands_ne name source members options _ hcommand

end CustomModule

/-! ## Lines of a report

A report says many things, and one line is about when the command runs. It is known by its first
letter, which no line on anything else begins with, so it can be asked for without saying where it
stands. -/

theorem Conversion.message_polled (s : UInt64) :
    (polled s).message = s!"interval: {s.toNat}s -> {(milliseconds s).toNat}ms" :=
  rfl

theorem Report.eq_scheduled {m : CustomModule} {c : Conversion} (hc : c ∈ convertedOf m)
    (hinitial : c.initial = 'm' ∨ c.initial = 'i') : c = scheduled m.interval := by
  have hother : ∀ {b d}, c ∈ noteIf b d → d.initial = 'm' ∨ d.initial = 'i' := by
    intro b d h
    rwa [← ((mem_noteIf_iff b d c).mp h).2]
  simp only [convertedOf, List.mem_append, List.mem_singleton, or_assoc] at hc
  rcases hc with h | rfl | h | h | h | h
  · exact absurd (hother h) (by simp [Conversion.initial])
  · rfl
  all_goals exact absurd (hother h) (by decide)

theorem Report.scheduled_mem (m : CustomModule) : scheduled m.interval ∈ convertedOf m := by
  simp only [convertedOf, List.mem_append, List.mem_singleton]
  tauto

theorem Report.mem_lines_iff (m : CustomModule) {l : String} {c : Char}
    (hc : c = 'm' ∨ c = 'i') (hl : l.toList.head? = some c) :
    l ∈ (convertedOf m).map (·.message) ↔ l = (scheduled m.interval).message := by
  constructor
  · intro h
    obtain ⟨d, hd, rfl⟩ := List.mem_map.mp h
    rw [Conversion.head?_message, Option.some.injEq] at hl
    rw [eq_scheduled hd (hl ▸ hc)]
  · rintro rfl
    exact List.mem_map_of_mem (scheduled_mem m)

/-! ## Agreement

Each text is read back in its own way: widget and manifest as documents, the bar view as what its
template renders to, the report by the beginnings of its lines. -/

/-- What the texts made of a module say alike: the file of its widget, the manifest and the bar view
of its plugin, and the lines of its report on what was converted. -/
structure Agree (m : CustomModule) (widget manifest bar : String) (lines : List String) : Prop where
  mode : manifestDefault? manifest "intervalMode" = some (.string m.interval.modeName)
  /-- The widget reads a stream where the plugin runs the command once. -/
  stream : Widget.member? widget "textStream" = some (.bool true) ↔
    manifestDefault? manifest "intervalMode" = some (.string "once")
  /-- That is what the report says. -/
  streamed : manifestDefault? manifest "intervalMode" = some (.string "once") ↔
    "mode: streaming/once" ∈ lines
  /-- Seconds in the plugin are so many milliseconds in the widget, and the report states both. -/
  poll : manifestDefault? manifest "intervalMode" = some (.string "poll") → ∃ seconds : Nat,
    1000 * seconds < UInt64.size ∧
    manifestDefault? manifest "interval" = some (.number (.int seconds)) ∧
    Widget.member? widget "textIntervalMs" =
      (if seconds = 0 then none else some (.number (.int (1000 * seconds : Nat)))) ∧
    ∀ l, l ∈ lines ∧ "interval: ".toList <+: l.toList ↔
      l = s!"interval: {seconds}s -> {1000 * seconds}ms"
  /-- The plugin waits as long before it runs the command again. -/
  restart : 1000 * (m.restartInterval.getD 0).toNat < UInt64.size ∧
    manifestDefault? manifest "restartIntervalMs" =
      some (.number (.int (1000 * (m.restartInterval.getD 0).toNat : Nat)))
  /-- The output of a command is read alike. -/
  parse : m.exec ≠ "" → ∃ b, manifestDefault? manifest "parseJson" = some (.bool b) ∧
    Widget.member? widget "parseJson" = if b then some (.bool true) else none
  /-- Both run the same commands. -/
  commands : ∀ h ∈ handlers, ∃ command, command? bar h.label = some command ∧
    Widget.member? widget h.member = if command = "" then none else some (.string command)

theorem member?_file (m : CustomModule) (options : Options) (key : String) :
    Widget.member? (ConvertedWidget.ofModule options m).file.contents key =
      ((Widget.ofModule m (Command.ofModule m)).table.lookup key).join :=
  Widget.member?_document _ key

theorem parsesJson_ofModule {m : CustomModule} (h : m.exec ≠ "") :
    (Command.ofModule m).parsesJson = m.isJson := by
  have hreads : (Command.ofModule m).parsesJson = true ↔ m.isJson = true ∧ m.exec ≠ "" :=
    (Treatment.suits_ofModule m).parsesJson_iff
  rw [Bool.eq_iff_iff, hreads, and_iff_left h]

theorem commandOf_map {command : Option String} (h : command ≠ some "") (updates : Bool) :
    Widget.commandOf (command.map fun exec ↦ ⟨exec, updates⟩) =
      if command.getD "" = "" then none else some (.string (command.getD "")) := by
  cases command with
  | none => rfl
  | some exec =>
    have hne : exec ≠ "" := fun hexec ↦ h (congrArg some hexec)
    exact (if_neg hne).symm

theorem intervalMs_poll {s : UInt64} (h : s.toNat ≤ secondsLimit) (origin : Origin) :
    (Widget.intervalMs (.poll s origin)).map Widget.ofUInt64 =
      if s.toNat = 0 then none else some (.number (.int (1000 * s.toNat : Nat))) := by
  have hms : (milliseconds s).toNat = 1000 * s.toNat := toNat_milliseconds_of_le h
  have hinterval : Widget.intervalMs (.poll s origin) =
      if s = 0 then none else some (milliseconds s) :=
    Widget.intervalMs_eq h
  rw [hinterval, ← hms]
  by_cases hs : s = 0
  · rw [if_pos ((toNat_eq_zero_iff s).mpr hs)]
    exact congrArg _ (if_pos hs)
  · rw [if_neg (mt (toNat_eq_zero_iff s).mp hs)]
    exact congrArg _ (if_neg hs)

theorem mem_lines_polled_iff {m : CustomModule} {s : UInt64} {origin : Origin}
    (hinterval : m.interval = .poll s origin) (h : s.toNat ≤ secondsLimit) (l : String) :
    l ∈ (Report.convertedOf m).map (·.message) ∧ "interval: ".toList <+: l.toList ↔
      l = s!"interval: {s.toNat}s -> {1000 * s.toNat}ms" := by
  have hmessage : (Report.scheduled m.interval).message =
      s!"interval: {s.toNat}s -> {1000 * s.toNat}ms" := by
    rw [hinterval, Report.scheduled, Conversion.message_polled, toNat_milliseconds_of_le h]
  rw [← hmessage]
  constructor
  · rintro ⟨hl, rest, hrest⟩
    refine (Report.mem_lines_iff m (.inr rfl) ?_).mp hl
    rw [← hrest]
    rfl
  · rintro rfl
    refine ⟨List.mem_map_of_mem (Report.scheduled_mem m), ?_⟩
    rw [hinterval, Report.scheduled, Conversion.message_polled]
    simp only [String.toList_append, List.append_assoc]
    exact List.prefix_append _ _

theorem mem_lines_streamed_iff (m : CustomModule) :
    "mode: streaming/once" ∈ (Report.convertedOf m).map (·.message) ↔
      m.interval.modeName = "once" := by
  rw [Report.mem_lines_iff m (.inl rfl) rfl]
  cases m.interval with
  | once => exact iff_of_true rfl rfl
  | poll s origin =>
    refine iff_of_false (fun h ↦ ?_) (Interval.modeName_poll_ne s origin)
    have hhead := Conversion.head?_message (.polled s)
    rw [show (Conversion.polled s).message = _ from h.symm, Conversion.initial] at hhead
    exact absurd hhead (by decide)

/-- The manifest of a module's plugin, as it is written. -/
def manifestText (m : CustomModule) (options : Options) : String :=
  Artifact.document (manifest m.name (defaults m options.defaultInterval))

theorem manifestDefault?_text (m : CustomModule) (options : Options) (setting : String) :
    manifestDefault? (manifestText m options) setting =
      (PluginDefaults.toJson (defaults m options.defaultInterval)).object? >>= (·.lookup setting) :=
  manifestDefault?_manifest _ _ setting

theorem manifestDefault?_mode_iff (m : CustomModule) (options : Options) (mode : String) :
    manifestDefault? (manifestText m options) "intervalMode" = some (.string mode) ↔
      m.interval.modeName = mode := by
  have hmode : manifestDefault? (manifestText m options) "intervalMode" =
      some (.string m.interval.modeName) :=
    manifestDefault?_text m options "intervalMode"
  rw [hmode, Option.some.injEq, Json.string.injEq]

theorem streams_iff (m : CustomModule) (options : Options) :
    Widget.member? (ConvertedWidget.ofModule options m).file.contents "textStream" =
      some (.bool true) ↔ m.interval.modeName = "once" := by
  have hstream : Widget.member? (ConvertedWidget.ofModule options m).file.contents "textStream" =
      Widget.ifHolds m.interval.isStreaming :=
    member?_file m options "textStream"
  rw [hstream]
  cases m.interval with
  | once => exact iff_of_true rfl rfl
  | poll s origin => exact iff_of_false nofun (Interval.modeName_poll_ne s origin)

/-- Seconds and milliseconds of a module that polls, in plugin, widget and report. -/
theorem exists_seconds {m : CustomModule} (hm : m.Settled) (options : Options)
    (hpoll : m.interval.modeName = "poll") : ∃ seconds : Nat,
    1000 * seconds < UInt64.size ∧
    manifestDefault? (manifestText m options) "interval" = some (.number (.int seconds)) ∧
    Widget.member? (ConvertedWidget.ofModule options m).file.contents "textIntervalMs" =
      (if seconds = 0 then none else some (.number (.int (1000 * seconds : Nat)))) ∧
    ∀ l, l ∈ (Report.convertedOf m).map (·.message) ∧ "interval: ".toList <+: l.toList ↔
      l = s!"interval: {seconds}s -> {1000 * seconds}ms" := by
  have hwidget : Widget.member? (ConvertedWidget.ofModule options m).file.contents
      "textIntervalMs" = (Widget.intervalMs m.interval).map Widget.ofUInt64 :=
    member?_file m options "textIntervalMs"
  have hle := hm.seconds_le
  cases hinterval : m.interval with
  | once =>
    rw [hinterval] at hpoll
    exact absurd hpoll (by decide)
  | poll s origin =>
    rw [hinterval] at hle hwidget
    have hdefault : (defaults m options.defaultInterval).interval = s := by
      rw [defaults, hinterval]
      rfl
    refine ⟨s.toNat, milliseconds_fit hle, ?_, ?_, mem_lines_polled_iff hinterval hle⟩
    · rw [manifestDefault?_text, ← hdefault]
      rfl
    · rw [hwidget]
      exact intervalMs_poll hle origin

theorem member?_of_mem_handlers (m : CustomModule) (options : Options) {h : Handler}
    (hh : h ∈ handlers) (hne : h.command m ≠ some "") :
    Widget.member? (ConvertedWidget.ofModule options m).file.contents h.member =
      if (h.command m).getD "" = "" then none else some (.string ((h.command m).getD "")) := by
  have hmember : Widget.member? (ConvertedWidget.ofModule options m).file.contents h.member =
      Widget.commandOf ((h.command m).map fun exec ↦ ⟨exec, m.execOnEvent⟩) := by
    rw [member?_file]
    clear hne
    revert h
    simp only [handlers, List.forall_mem_cons]
    exact ⟨rfl, rfl, rfl, rfl, rfl, List.forall_mem_nil _⟩
  rw [hmember, commandOf_map hne]

theorem agree_of_settled {m : CustomModule} (hm : m.Settled) (options : Options)
    {text : List Char} (hbar : Renders m options.defaultInterval barView text) :
    Agree m (ConvertedWidget.ofModule options m).file.contents (manifestText m options)
      (String.ofList text) ((Report.ofModule m options).converted.map (·.message)) where
  mode := (manifestDefault?_mode_iff m options _).mpr rfl
  stream := (streams_iff m options).trans (manifestDefault?_mode_iff m options _).symm
  streamed := (manifestDefault?_mode_iff m options _).trans (mem_lines_streamed_iff m).symm
  poll hpoll := exists_seconds hm options ((manifestDefault?_mode_iff m options _).mp hpoll)
  restart := by
    refine ⟨milliseconds_fit hm.restart_le, ?_⟩
    rw [manifestDefault?_text, ← toNat_milliseconds_of_le hm.restart_le]
    rfl
  parse hexec := by
    refine ⟨m.isJson, manifestDefault?_text m options "parseJson", ?_⟩
    rw [← parsesJson_ofModule hexec]
    exact member?_file m options "parseJson"
  commands h hh :=
    ⟨_, command?_of_renders hbar hh, member?_of_mem_handlers m options hh (hm.command_ne h hh)⟩

/-- **Widget, plugin and report agree.** Whatever object a module is read from, and whatever the
options are, its plugin is made; and its widget, the manifest and the bar view of the plugin and the
report say the same of when the command runs, how its output is read and what the handlers run. No
number of seconds that they state is too large for its milliseconds. -/
theorem emitters_agree (name source : String) (members : List (String × Json))
    (options : Options) :
    let m := CustomModule.ofMembers name source members options
    ∃ plugin manifest main bar settings texts readme,
      ofModule m options.defaultInterval = .ok plugin ∧
      plugin.files = [⟨directory m ++ "manifest.json", manifest⟩, ⟨directory m ++ "Main.qml", main⟩,
        ⟨directory m ++ "BarWidget.qml", bar⟩, ⟨directory m ++ "Settings.qml", settings⟩,
        ⟨directory m ++ "i18n/en.json", texts⟩, ⟨directory m ++ "README.md", readme⟩] ∧
      Agree m (ConvertedWidget.ofModule options m).file.contents manifest bar
        ((Report.ofModule m options).converted.map (·.message)) := by
  intro m
  obtain ⟨main, bar, settings, readmeText, hmain, hbar, hsettings, hreadme, -⟩ :=
    exists_renders m options.defaultInterval
  exact ⟨_, _, _, _, _, _, _, ofModule_eq hmain hbar hsettings hreadme, rfl,
    agree_of_settled (CustomModule.settled_ofMembers name source members options) options hbar⟩

/-- A module that states no interval and handles a click. -/
theorem emitters_agree_clock :
    let m := CustomModule.ofMembers "clock" "config"
      [("exec", .string "date"), ("on-click", .string "cal")] {}
    ∃ manifest bar,
      Agree m (ConvertedWidget.ofModule {} m).file.contents manifest bar
        ((Report.ofModule m {}).converted.map (·.message)) ∧
      manifestDefault? manifest "intervalMode" = some (.string "poll") ∧
      (∃ seconds : Nat, manifestDefault? manifest "interval" = some (.number (.int seconds)) ∧
        s!"interval: {seconds}s -> {1000 * seconds}ms" ∈
          (Report.ofModule m {}).converted.map (·.message)) ∧
      ∃ b, manifestDefault? manifest "parseJson" = some (.bool b) := by
  intro m
  obtain ⟨plugin, manifest, main, bar, settings, texts, readme, -, -, hagree⟩ :=
    emitters_agree "clock" "config" [("exec", .string "date"), ("on-click", .string "cal")] {}
  have hmode : manifestDefault? manifest "intervalMode" = some (.string "poll") := hagree.mode
  have hexec : m.exec ≠ "" := by decide
  obtain ⟨seconds, -, hseconds, -, hlines⟩ := hagree.poll hmode
  obtain ⟨b, hb, -⟩ := hagree.parse hexec
  exact ⟨manifest, bar, hagree, hmode, ⟨seconds, hseconds, ((hlines _).mpr rfl).1⟩, b, hb⟩

end BarBridge
