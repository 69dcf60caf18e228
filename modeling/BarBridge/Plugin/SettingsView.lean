import BarBridge.Text.Lines

/-!
# The settings view of a plugin

The form in which the user changes the command, the way it is scheduled and how its output is read.
Its starting values are found in the same order as in the main view.
-/

namespace BarBridge.Plugin

/-- The template of the file. -/
def settingsView : String := Text.ofLines [
  "import QtQuick",
  "import QtQuick.Controls",
  "import QtQuick.Layouts",
  "import qs.Commons",
  "import qs.Modules.Panels.Settings",
  "",
  "Item \x7b",
  "  id: root",
  "",
  "  property var pluginApi: null",
  "",
  "  readonly property var defaultSettings: pluginApi?.manifest?.metadata?.defaultSettings || (\x7b\x7d)",
  "",
  "  function settingOr(value, fallback) \x7b",
  "    return (value !== undefined && value !== null) ? value : fallback;",
  "  \x7d",
  "",
  "  property string valueTextCommand: settingOr(pluginApi?.pluginSettings?.textCommand, settingOr(defaultSettings.textCommand, \"\x7b\x7b text_command \x7d\x7d\"))",
  "  property int valueInterval: settingOr(pluginApi?.pluginSettings?.interval, settingOr(defaultSettings.interval, \x7b\x7b interval \x7d\x7d))",
  "  property string valueIntervalMode: settingOr(pluginApi?.pluginSettings?.intervalMode, settingOr(defaultSettings.intervalMode, \"\x7b\x7b interval_mode \x7d\x7d\"))",
  "  property int valueRestartMs: settingOr(pluginApi?.pluginSettings?.restartIntervalMs, settingOr(defaultSettings.restartIntervalMs, \x7b\x7b restart_interval_ms \x7d\x7d))",
  "  property bool valueParseJson: settingOr(pluginApi?.pluginSettings?.parseJson, settingOr(defaultSettings.parseJson, \x7b\x7b parse_json \x7d\x7d))",
  "",
  "  ColumnLayout \x7b",
  "    anchors.fill: parent",
  "    spacing: 12",
  "",
  "    SettingsSection \x7b",
  "      title: pluginApi?.tr(\"settings.title\") || \"Waybar Module\"",
  "      description: pluginApi?.tr(\"settings.description\") || \"Configure the command and update cadence for this converted module.\"",
  "    \x7d",
  "",
  "    SettingsTextField \x7b",
  "      label: pluginApi?.tr(\"settings.command\") || \"Text command\"",
  "      text: root.valueTextCommand",
  "      onTextChanged: root.valueTextCommand = text",
  "    \x7d",
  "",
  "    SettingsRow \x7b",
  "      label: pluginApi?.tr(\"settings.interval-mode\") || \"Interval mode\"",
  "      ComboBox \x7b",
  "        model: [\"poll\", \"once\"]",
  "        currentIndex: model.indexOf(root.valueIntervalMode)",
  "        onCurrentTextChanged: root.valueIntervalMode = currentText",
  "      \x7d",
  "    \x7d",
  "",
  "    SettingsRow \x7b",
  "      label: pluginApi?.tr(\"settings.interval\") || \"Poll interval (seconds)\"",
  "      SpinBox \x7b",
  "        from: 1",
  "        to: 86400",
  "        value: root.valueInterval",
  "        enabled: root.valueIntervalMode === \"poll\"",
  "        onValueChanged: root.valueInterval = value",
  "      \x7d",
  "    \x7d",
  "",
  "    SettingsRow \x7b",
  "      label: pluginApi?.tr(\"settings.restart\") || \"Restart interval (ms)\"",
  "      SpinBox \x7b",
  "        from: 0",
  "        to: 600000",
  "        value: root.valueRestartMs",
  "        enabled: root.valueIntervalMode === \"once\"",
  "        onValueChanged: root.valueRestartMs = value",
  "      \x7d",
  "    \x7d",
  "",
  "    SettingsRow \x7b",
  "      label: pluginApi?.tr(\"settings.parse-json\") || \"Parse JSON\"",
  "      Switch \x7b",
  "        checked: root.valueParseJson",
  "        onToggled: root.valueParseJson = checked",
  "      \x7d",
  "    \x7d",
  "",
  "    SettingsButton \x7b",
  "      text: pluginApi?.tr(\"settings.save\") || \"Save\"",
  "      onClicked: \x7b",
  "        if (!pluginApi) return;",
  "        pluginApi.pluginSettings.textCommand = root.valueTextCommand;",
  "        pluginApi.pluginSettings.interval = root.valueInterval;",
  "        pluginApi.pluginSettings.intervalMode = root.valueIntervalMode;",
  "        pluginApi.pluginSettings.restartIntervalMs = root.valueRestartMs;",
  "        pluginApi.pluginSettings.parseJson = root.valueParseJson;",
  "        pluginApi.saveSettings();",
  "        pluginApi.mainInstance?.refresh();",
  "      \x7d",
  "    \x7d",
  "  \x7d",
  "\x7d"]

end BarBridge.Plugin
