import BarBridge.Artifact
import BarBridge.Module.Name
import BarBridge.Module.Members
import BarBridge.Plugin.BarView
import BarBridge.Plugin.MainView
import BarBridge.Plugin.Readme
import BarBridge.Plugin.SettingsView
import BarBridge.Template
import BarBridge.Text.QmlString
import BarBridge.Text.TitleCase

/-!
# Plugins

A plugin is a directory of six files made from one module: a manifest, three views, a table of texts
and a readme. Each default of a plugin is written twice, into the manifest and into the views, so
that a view still starts when the manifest is missing; both are written from one `PluginDefaults`.

Values that go between double quotes of a view are escaped here, before they reach the template. The
readme is no QML and takes names as they are.
-/

namespace BarBridge

/-- What a plugin starts with. -/
structure PluginDefaults where
  textCommand : String
  interval : UInt64
  intervalMode : String
  restartIntervalMs : UInt64
  parseJson : Bool
  deriving DecidableEq, Repr

structure Plugin where
  id : String
  files : List Artifact
  deriving DecidableEq, Repr

namespace Plugin

/-- The name of a module's plugin. -/
def idOf (name : String) : String :=
  "waybar-" ++ fileStem name

/-- The name shown to the user, with blanks for dashes and a capital for each word. -/
def displayName (name : String) : String :=
  "Waybar " ++
    String.ofList (Text.titleCase (name.toList.map fun c ↦ if c = '-' then ' ' else c))

/-- Where a module's plugin comes from. -/
def provenance (name : String) : String :=
  "Converted from Waybar custom/" ++ name

/-- What the plugin of a module starts with. A streaming module has no interval of its own; it gets
the default, in case the user has it poll. -/
def defaults (m : CustomModule) (defaultInterval : UInt64) : PluginDefaults where
  textCommand := m.exec
  interval := if m.interval.isStreaming then defaultInterval else m.interval.seconds
  intervalMode := m.interval.modeName
  restartIntervalMs := milliseconds (m.restartInterval.getD 0)
  parseJson := m.isJson

/-- The defaults as they stand in the manifest. -/
def PluginDefaults.toJson (d : PluginDefaults) : Json :=
  .object [
    ("textCommand", .string d.textCommand),
    ("interval", .number (.int d.interval.toNat)),
    ("intervalMode", .string d.intervalMode),
    ("restartIntervalMs", .number (.int d.restartIntervalMs.toNat)),
    ("parseJson", .bool d.parseJson)]

/-- The manifest. -/
def manifest (name : String) (d : PluginDefaults) : Json :=
  .object [
    ("id", .string (idOf name)),
    ("name", .string (displayName name)),
    ("version", .string "1.0.0"),
    ("author", .string "waybar-converter"),
    ("description", .string (provenance name ++ " module")),
    ("entryPoints", .object [
      ("main", .string "Main.qml"),
      ("barWidget", .string "BarWidget.qml"),
      ("settings", .string "Settings.qml")]),
    ("metadata", .object [("defaultSettings", PluginDefaults.toJson d)])]

/-- The table of texts. -/
def texts (name : String) : Json :=
  .object [
    ("title", .string (displayName name)),
    ("description", .string (provenance name)),
    ("settings", .object [
      ("title", .string "Waybar Module"),
      ("description",
        .string "Configure the command and update cadence for this converted module."),
      ("command", .string "Text command"),
      ("interval-mode", .string "Interval mode"),
      ("interval", .string "Poll interval (seconds)"),
      ("restart", .string "Restart interval (ms)"),
      ("parse-json", .string "Parse JSON"),
      ("save", .string "Save")])]

/-- A value for the inside of a string literal of a view. -/
def literal (s : String) : Template.Value :=
  .text (Text.qmlString s)

/-- The values of the templates' holes. -/
def values (m : CustomModule) (d : PluginDefaults) : List (String × Template.Value) := [
  ("plugin_id", literal (idOf m.name)),
  ("module_name", .text m.name),
  ("display_name", .text (displayName m.name)),
  ("text_command", literal d.textCommand),
  ("interval", .integer d.interval.toNat),
  ("interval_mode", .text d.intervalMode),
  ("restart_interval_ms", .integer d.restartIntervalMs.toNat),
  ("parse_json", .flag d.parseJson),
  ("exec_if", literal m.execIf),
  ("format", literal m.format),
  ("format_icons", .text (String.ofList (Json.array (m.icons.map .string)).compact)),
  ("escape_markup", .flag m.escapeMarkup),
  ("exec_on_event", .flag m.execOnEvent),
  ("on_click", literal (m.onClick.getD "")),
  ("on_click_right", literal (m.onClickRight.getD "")),
  ("on_click_middle", literal (m.onClickMiddle.getD "")),
  ("on_scroll_up", literal (m.onScrollUp.getD "")),
  ("on_scroll_down", literal (m.onScrollDown.getD ""))]

/-- The templates of a plugin. -/
def templates : List (String × String) := [
  ("Main.qml", mainView),
  ("BarWidget.qml", barView),
  ("Settings.qml", settingsView),
  ("README.md", readme)]

/-- The plugin of a module. -/
def ofModule (m : CustomModule) (defaultInterval : UInt64) : Except Template.Fault Plugin := do
  let set ← TemplateSet.ofList templates
  let d := defaults m defaultInterval
  let vs := values m d
  let dir := "plugins/" ++ idOf m.name ++ "/"
  let main ← set.render "Main.qml" vs
  let bar ← set.render "BarWidget.qml" vs
  let settings ← set.render "Settings.qml" vs
  let readme ← set.render "README.md" vs
  return {
    id := idOf m.name
    files := [
      Artifact.json (dir ++ "manifest.json") (manifest m.name d),
      ⟨dir ++ "Main.qml", main⟩,
      ⟨dir ++ "BarWidget.qml", bar⟩,
      ⟨dir ++ "Settings.qml", settings⟩,
      Artifact.json (dir ++ "i18n/en.json") (texts m.name),
      ⟨dir ++ "README.md", readme⟩] }

end Plugin

end BarBridge
