import BarBridge.Plugin.Basic
import BarBridge.Proofs.Template.Filling

/-!
# The views of a plugin

For any module, however its texts look, making a plugin succeeds, and each of the three views says
what it should: behind the name of every property and handler stands the value of the module that
belongs there, literals end where the template ends them, and no line is added. This is
`ofModule_shows`.

The templates are fixed, so their layouts are evaluated once, below; what is left for the modules is
that each hole has a value, and that the value was written for the place it goes to.
-/

namespace BarBridge.Plugin

open Template Text

/-! ## Layouts

Which holes a view has, in which order they come, which of them stand between quotes and where the
lines end is the same for all modules. It is checked once for each view. -/

/-- The places of the defaults, which two of the views fall back on. -/
def fallbackSockets : List Socket := [
  ⟨"defaultSettings.textCommand, \"", "text_command", true⟩,
  ⟨"defaultSettings.interval, ", "interval", false⟩,
  ⟨"defaultSettings.intervalMode, \"", "interval_mode", true⟩,
  ⟨"defaultSettings.restartIntervalMs, ", "restart_interval_ms", false⟩,
  ⟨"defaultSettings.parseJson, ", "parse_json", false⟩]

def mainSockets : List Socket := fallbackSockets ++ [
  ⟨"execIf: \"", "exec_if", true⟩,
  ⟨"formatString: \"", "format", true⟩,
  ⟨"formatIcons: ", "format_icons", false⟩,
  ⟨"escapeMarkup: ", "escape_markup", false⟩,
  ⟨"Logger.w(\"", "plugin_id", true⟩]

def barSockets : List Socket := [
  ⟨"refreshOnEvent: ", "exec_on_event", false⟩,
  ⟨" onClicked: root.runHandler(\"", "on_click", true⟩,
  ⟨" onRightClicked: root.runHandler(\"", "on_click_right", true⟩,
  ⟨" onMiddleClicked: root.runHandler(\"", "on_click_middle", true⟩,
  ⟨"angleDelta.y > 0) \x7b\n        root.runHandler(\"", "on_scroll_up", true⟩,
  ⟨"angleDelta.y < 0) \x7b\n        root.runHandler(\"", "on_scroll_down", true⟩]

/-- What is to stand in the holes of the views of a module. -/
def slots (m : CustomModule) (d : PluginDefaults) : List (String × Slot) := [
  ("plugin_id", .literal (idOf m.name)),
  ("text_command", .literal m.exec),
  ("interval", .integer d.interval.toNat),
  ("interval_mode", .literal m.interval.modeName),
  ("restart_interval_ms", .integer d.restartIntervalMs.toNat),
  ("parse_json", .flag m.isJson),
  ("exec_if", .literal m.execIf),
  ("format", .literal m.format),
  ("format_icons", .list m.icons),
  ("escape_markup", .flag m.escapeMarkup),
  ("exec_on_event", .flag m.execOnEvent),
  ("on_click", .literal (m.onClick.getD "")),
  ("on_click_right", .literal (m.onClickRight.getD "")),
  ("on_click_middle", .literal (m.onClickMiddle.getD "")),
  ("on_scroll_up", .literal (m.onScrollUp.getD "")),
  ("on_scroll_down", .literal (m.onScrollDown.getD ""))]

/-- Whether pieces of a template have a layout, and its line ends outside the holes. -/
def agrees (sockets : List Socket) (source : List Char) (pieces : List Piece) : Bool :=
  laidOut sockets pieces && (pieces.flatMap Piece.fixed).count '\n' == source.count '\n'

set_option maxRecDepth 100000 in
theorem exists_parse_mainView :
    ∃ pieces, parse mainView = some pieces ∧ agrees mainSockets mainView.toList pieces = true := by
  dsimp only [mainView]
  -- The lines become characters by unification, one by one; only the layout is evaluated.
  apply exists_parse_ofLines (agrees mainSockets)
  · repeat (apply lineChars_cons; exact rfl)
    exact lineChars_nil
  · decide +kernel

set_option maxRecDepth 100000 in
theorem exists_parse_barView :
    ∃ pieces, parse barView = some pieces ∧ agrees barSockets barView.toList pieces = true := by
  dsimp only [barView]
  apply exists_parse_ofLines (agrees barSockets)
  · repeat (apply lineChars_cons; exact rfl)
    exact lineChars_nil
  · decide +kernel

set_option maxRecDepth 100000 in
theorem exists_parse_settingsView :
    ∃ pieces, parse settingsView = some pieces ∧
      agrees fallbackSockets settingsView.toList pieces = true := by
  dsimp only [settingsView]
  apply exists_parse_ofLines (agrees fallbackSockets)
  · repeat (apply lineChars_cons; exact rfl)
    exact lineChars_nil
  · decide +kernel

/-- The names of the holes of the readme. -/
def readmeNames : List String :=
  ["display_name", "module_name", "interval_mode", "interval", "restart_interval_ms", "parse_json"]

/-- Whether every hole has one of the given names. -/
def onlyNames (names : List String) (pieces : List Piece) : Bool :=
  pieces.all fun
    | .text _ => true
    | .hole name => names.contains name

set_option maxRecDepth 100000 in
theorem exists_parse_readme :
    ∃ pieces, parse readme = some pieces ∧ onlyNames readmeNames pieces = true := by
  dsimp only [readme]
  apply exists_parse_ofLines fun _ ↦ onlyNames readmeNames
  · repeat (apply lineChars_cons; exact rfl)
    exact lineChars_nil
  · decide +kernel

/-! ## The values of a module -/

theorem suits_literal (s : String) : (Slot.literal s).Suits (literal s) := by
  rw [Slot.Suits, literal, Value.write]

theorem suits_list (items : List String) :
    (Slot.list items).Suits (.text (String.ofList (Json.array (items.map .string)).compact)) := by
  rw [Slot.Suits, Value.write, String.toList_ofList]

theorem suits_modeName (i : Interval) : (Slot.literal i.modeName).Suits (.text i.modeName) := by
  rw [Slot.Suits, Value.write]
  cases i with
  | once => decide
  | poll seconds origin =>
    have hpoll : "poll".toList = (qmlString "poll").toList := by decide
    exact hpoll

theorem exists_serves (m : CustomModule) (interval : UInt64) :
    ∀ s ∈ mainSockets ++ barSockets, ∃ slot v,
      Serves (values m (defaults m interval) ++ functions) (slots m (defaults m interval)) s slot
        v := by
  -- Texts of the module go through the same escape wherever they stand; other values are written
  -- as they are.
  have escaped : ∀ {label name s : String},
      (slots m (defaults m interval)).lookup name = some (.literal s) →
      (values m (defaults m interval) ++ functions).lookup name = some (literal s) →
      ∃ slot v, Serves (values m (defaults m interval) ++ functions)
        (slots m (defaults m interval)) ⟨label, name, true⟩ slot v := by
    intro label name s hslot hvalue
    exact ⟨_, _, hslot, hvalue, suits_literal s, fun _ ↦ rfl⟩
  simp only [mainSockets, barSockets, fallbackSockets, List.cons_append, List.nil_append,
    List.forall_mem_cons]
  refine ⟨escaped rfl rfl, ⟨_, _, rfl, rfl, rfl, nofun⟩,
    ⟨_, _, rfl, rfl, suits_modeName _, fun _ ↦ rfl⟩, ⟨_, _, rfl, rfl, rfl, nofun⟩,
    ⟨_, _, rfl, rfl, rfl, nofun⟩, ?_⟩
  refine ⟨escaped rfl rfl, escaped rfl rfl, ⟨_, _, rfl, rfl, suits_list _, nofun⟩,
    ⟨_, _, rfl, rfl, rfl, nofun⟩, escaped rfl rfl, ?_⟩
  exact ⟨⟨_, _, rfl, rfl, rfl, nofun⟩, escaped rfl rfl, escaped rfl rfl, escaped rfl rfl,
    escaped rfl rfl, escaped rfl rfl, by simp⟩

/-- What a view says about the slots of a module: it is the template with every place served, and
its lines end where those of the template end. -/
def Shows (slots : List (String × Slot)) (sockets : List Socket) (view contents : String) : Prop :=
  ∃ pieces, parse view = some pieces ∧ Filled slots sockets pieces contents.toList ∧
    contents.toList.count '\n' = view.toList.count '\n'

/-- What a template is filled with for a module. -/
def Renders (m : CustomModule) (interval : UInt64) (source : String) (text : List Char) : Prop :=
  ∃ pieces, parse source = some pieces ∧
    fill (values m (defaults m interval) ++ functions) pieces = .ok text

theorem exists_shows {view : String} {sockets : List Socket}
    (hview : ∃ pieces, parse view = some pieces ∧ agrees sockets view.toList pieces = true)
    (hsockets : sockets ⊆ mainSockets ++ barSockets) (m : CustomModule) (interval : UInt64) :
    ∃ text, Renders m interval view text ∧
      Shows (slots m (defaults m interval)) sockets view (String.ofList text) := by
  obtain ⟨pieces, hpieces, hagrees⟩ := hview
  rw [agrees, Bool.and_eq_true, beq_iff_eq] at hagrees
  obtain ⟨text, hfill, hfilled, hcount⟩ :=
    exists_filled hagrees.1 fun s hs ↦ exists_serves m interval s (hsockets hs)
  refine ⟨text, ⟨pieces, hpieces, hfill⟩, pieces, hpieces, ?_, ?_⟩
  · rwa [String.toList_ofList]
  · rw [String.toList_ofList, hcount, hagrees.2]

theorem exists_renders_readme (m : CustomModule) (interval : UInt64) :
    ∃ text, Renders m interval readme text := by
  obtain ⟨pieces, hpieces, hnames⟩ := exists_parse_readme
  have hvalues : ∀ name ∈ readmeNames,
      ((values m (defaults m interval) ++ functions).lookup name).isSome = true := by
    simp only [readmeNames, List.forall_mem_cons]
    exact ⟨rfl, rfl, rfl, rfl, rfl, rfl, by simp⟩
  have hholes : ∀ name, .hole name ∈ pieces →
      ((values m (defaults m interval) ++ functions).lookup name).isSome = true := by
    intro name hname
    have hone := List.all_eq_true.mp hnames _ hname
    exact hvalues name (by simpa using hone)
  obtain ⟨text, htext⟩ := exists_fill hholes
  exact ⟨text, pieces, hpieces, htext⟩

theorem exists_renders (m : CustomModule) (interval : UInt64) :
    ∃ main bar settings readmeText,
      Renders m interval mainView main ∧ Renders m interval barView bar ∧
      Renders m interval settingsView settings ∧ Renders m interval readme readmeText ∧
      Shows (slots m (defaults m interval)) mainSockets mainView (String.ofList main) ∧
      Shows (slots m (defaults m interval)) barSockets barView (String.ofList bar) ∧
      Shows (slots m (defaults m interval)) fallbackSockets settingsView
        (String.ofList settings) := by
  obtain ⟨main, hmain, hmainShows⟩ :=
    exists_shows exists_parse_mainView (List.subset_append_left _ _) m interval
  obtain ⟨bar, hbar, hbarShows⟩ :=
    exists_shows exists_parse_barView (List.subset_append_right _ _) m interval
  obtain ⟨settings, hsettings, hsettingsShows⟩ :=
    exists_shows exists_parse_settingsView
      (List.subset_append_of_subset_left _ (List.subset_append_left _ _)) m interval
  obtain ⟨readmeText, hreadme⟩ := exists_renders_readme m interval
  exact ⟨main, bar, settings, readmeText, hmain, hbar, hsettings, hreadme, hmainShows, hbarShows,
    hsettingsShows⟩

/-! ## Making a plugin

A plugin needs four texts, and any of them could fail to render. None does, so all that is left is
to put them into the files. -/

/-- The directory of a module's plugin. -/
def directory (m : CustomModule) : String :=
  "plugins/" ++ idOf m.name ++ "/"

/-- A plugin with the given texts for the files that are made from templates. -/
def assembled (m : CustomModule) (d : PluginDefaults) (main bar settings readme : String) :
    Plugin where
  id := idOf m.name
  files := [
    Artifact.json (directory m ++ "manifest.json") (manifest m.name d),
    ⟨directory m ++ "Main.qml", main⟩,
    ⟨directory m ++ "BarWidget.qml", bar⟩,
    ⟨directory m ++ "Settings.qml", settings⟩,
    Artifact.json (directory m ++ "i18n/en.json") (texts m.name),
    ⟨directory m ++ "README.md", readme⟩]

theorem ofModule_eq {m : CustomModule} {interval : UInt64}
    {main bar settings readmeText : List Char}
    (hmain : Renders m interval mainView main) (hbar : Renders m interval barView bar)
    (hsettings : Renders m interval settingsView settings)
    (hreadme : Renders m interval readme readmeText) :
    ofModule m interval = .ok (assembled m (defaults m interval) (String.ofList main)
      (String.ofList bar) (String.ofList settings) (String.ofList readmeText)) := by
  obtain ⟨mainPieces, hmain, hmainFill⟩ := hmain
  obtain ⟨barPieces, hbar, hbarFill⟩ := hbar
  obtain ⟨settingsPieces, hsettings, hsettingsFill⟩ := hsettings
  obtain ⟨readmePieces, hreadme, hreadmeFill⟩ := hreadme
  -- A template that is added stands in front of those added before.
  have hset : TemplateSet.ofList templates = .ok ⟨[
      ("README.md", readmePieces), ("Settings.qml", settingsPieces),
      ("BarWidget.qml", barPieces), ("Main.qml", mainPieces)]⟩ := by
    rw [TemplateSet.ofList, templates, addAll_cons hmain, addAll_cons hbar, addAll_cons hsettings,
      addAll_cons hreadme, TemplateSet.addAll]
  rw [ofModule, hset]
  simp only [bind, Except.bind]
  rw [render_eq rfl hmainFill, render_eq rfl hbarFill, render_eq rfl hsettingsFill,
    render_eq rfl hreadmeFill]
  rfl

/-- **Making a plugin succeeds**, and its views show the module. -/
theorem exists_assembled (m : CustomModule) (interval : UInt64) :
    ∃ main bar settings readme,
      ofModule m interval = .ok (assembled m (defaults m interval) main bar settings readme) ∧
      Shows (slots m (defaults m interval)) mainSockets mainView main ∧
      Shows (slots m (defaults m interval)) barSockets barView bar ∧
      Shows (slots m (defaults m interval)) fallbackSockets settingsView settings := by
  obtain ⟨main, bar, settings, readmeText, hmain, hbar, hsettings, hreadme, hshows⟩ :=
    exists_renders m interval
  exact ⟨_, _, _, _, ofModule_eq hmain hbar hsettings hreadme, hshows⟩

/-- **What the plugin of a module consists of.** Whatever texts the module has, there are six files
in a fixed order, and each of the three views is its template with every place served: literals are
read back as the texts of the module, the icons as its icons, and no line is added. -/
theorem ofModule_shows (m : CustomModule) (interval : UInt64) :
    ∃ plugin main bar settings readme, ofModule m interval = .ok plugin ∧
      plugin.id = idOf m.name ∧
      plugin.files = [
        Artifact.json (directory m ++ "manifest.json") (manifest m.name (defaults m interval)),
        ⟨directory m ++ "Main.qml", main⟩,
        ⟨directory m ++ "BarWidget.qml", bar⟩,
        ⟨directory m ++ "Settings.qml", settings⟩,
        Artifact.json (directory m ++ "i18n/en.json") (texts m.name),
        ⟨directory m ++ "README.md", readme⟩] ∧
      Shows (slots m (defaults m interval)) mainSockets mainView main ∧
      Shows (slots m (defaults m interval)) barSockets barView bar ∧
      Shows (slots m (defaults m interval)) fallbackSockets settingsView settings := by
  obtain ⟨main, bar, settings, readme, hplugin, hshows⟩ := exists_assembled m interval
  exact ⟨_, main, bar, settings, readme, hplugin, rfl, rfl, hshows⟩

end BarBridge.Plugin
