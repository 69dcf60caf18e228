import BarBridge.Text.Lines

/-!
# The main view of a plugin

The component that runs the command of a module: it polls or streams, reads the output, picks an
icon, applies the format and holds the text, icon and tooltip to be shown. What the user has saved
comes first, then the defaults of the manifest, then the values written into the template.
-/

namespace BarBridge.Plugin

/-- The template of the file. -/
def mainView : String := Text.ofLines [
  "import QtQuick",
  "import Quickshell",
  "import Quickshell.Io",
  "import qs.Commons",
  "",
  "Item \x7b",
  "  id: root",
  "",
  "  property var pluginApi: null",
  "",
  "  readonly property var defaultSettings: pluginApi?.manifest?.metadata?.defaultSettings || (\x7b\x7d)",
  "",
  "  function settingOr(value, fallback) \x7b",
  "    return (value !== undefined && value !== null) ? value : fallback;",
  "  \x7d",
  "",
  "  readonly property string textCommand: settingOr(pluginApi?.pluginSettings?.textCommand, settingOr(defaultSettings.textCommand, \"\x7b\x7b text_command \x7d\x7d\"))",
  "  readonly property int intervalSeconds: settingOr(pluginApi?.pluginSettings?.interval, settingOr(defaultSettings.interval, \x7b\x7b interval \x7d\x7d))",
  "  readonly property string intervalMode: settingOr(pluginApi?.pluginSettings?.intervalMode, settingOr(defaultSettings.intervalMode, \"\x7b\x7b interval_mode \x7d\x7d\"))",
  "  readonly property int restartIntervalMs: settingOr(pluginApi?.pluginSettings?.restartIntervalMs, settingOr(defaultSettings.restartIntervalMs, \x7b\x7b restart_interval_ms \x7d\x7d))",
  "  readonly property bool parseJson: settingOr(pluginApi?.pluginSettings?.parseJson, settingOr(defaultSettings.parseJson, \x7b\x7b parse_json \x7d\x7d))",
  "",
  "  readonly property string execIf: \"\x7b\x7b exec_if \x7d\x7d\"",
  "  readonly property string formatString: \"\x7b\x7b format \x7d\x7d\"",
  "  readonly property var formatIcons: \x7b\x7b format_icons \x7d\x7d",
  "  readonly property bool escapeMarkup: \x7b\x7b escape_markup \x7d\x7d",
  "",
  "  property string displayText: \"\"",
  "  property string displayIcon: \"\"",
  "  property string displayTooltip: \"\"",
  "",
  "  // \"idle\", \"running\" or \"cooldown\" (waiting for restartTimer in once mode).",
  "  property string runState: \"idle\"",
  "",
  "  readonly property bool isStreaming: intervalMode === \"once\"",
  "",
  "  signal refreshed()",
  "",
  "  SplitParser \x7b",
  "    id: stdoutSplit",
  "    onRead: line => root.parseOutput(line)",
  "  \x7d",
  "",
  "  StdioCollector \x7b",
  "    id: stdoutCollect",
  "    onStreamFinished: () => root.parseOutput(this.text)",
  "  \x7d",
  "",
  "  StdioCollector \x7b",
  "    id: stderrCollect",
  "    onStreamFinished: () => \x7b",
  "      if (this.text && this.text.trim().length > 0) \x7b",
  "        Logger.w(\"\x7b\x7b plugin_id \x7d\x7d\", this.text.trim());",
  "      \x7d",
  "    \x7d",
  "  \x7d",
  "",
  "  Process \x7b",
  "    id: textProc",
  "    command: [\"sh\", \"-lc\", root.buildCommand()]",
  "    stdout: root.isStreaming ? stdoutSplit : stdoutCollect",
  "    stderr: stderrCollect",
  "    onExited: (exitCode, exitStatus) => root.handleExit()",
  "  \x7d",
  "",
  "  Timer \x7b",
  "    id: pollTimer",
  "    interval: Math.max(250, root.intervalSeconds * 1000)",
  "    repeat: true",
  "    running: root.intervalMode === \"poll\" && root.textCommand.length > 0",
  "    triggeredOnStart: true",
  "    onTriggered: root.runCommand()",
  "  \x7d",
  "",
  "  Timer \x7b",
  "    id: restartTimer",
  "    interval: Math.max(500, root.restartIntervalMs)",
  "    repeat: false",
  "    onTriggered: root.runCommand()",
  "  \x7d",
  "",
  "  function buildCommand() \x7b",
  "    if (!execIf) return textCommand;",
  "    return `if $\x7bexecIf\x7d; then $\x7btextCommand\x7d; fi`;",
  "  \x7d",
  "",
  "  function runCommand() \x7b",
  "    if (!textCommand || runState === \"running\") return;",
  "    restartTimer.stop();",
  "    runState = \"running\";",
  "    textProc.running = true;",
  "  \x7d",
  "",
  "  function handleExit() \x7b",
  "    if (isStreaming && restartIntervalMs > 0) \x7b",
  "      runState = \"cooldown\";",
  "      restartTimer.start();",
  "    \x7d else \x7b",
  "      runState = \"idle\";",
  "    \x7d",
  "  \x7d",
  "",
  "  function refresh() \x7b",
  "    if (runState === \"cooldown\") return;",
  "    runCommand();",
  "  \x7d",
  "",
  "  function pickIcon(data) \x7b",
  "    var icon = data.icon || \"\";",
  "    if (!formatIcons || formatIcons.length === 0) return icon;",
  "    var pct = parseFloat(data.percentage);",
  "    if (isFinite(pct)) \x7b",
  "      var idx = Math.floor(pct * formatIcons.length / 100);",
  "      if (idx >= formatIcons.length) idx = formatIcons.length - 1;",
  "      if (idx < 0) idx = 0;",
  "      icon = formatIcons[idx];",
  "    \x7d else if (!icon) \x7b",
  "      icon = formatIcons[0];",
  "    \x7d",
  "    return icon;",
  "  \x7d",
  "",
  "  function fieldText(data, key) \x7b",
  "    return (data[key] !== undefined && data[key] !== null) ? String(data[key]) : \"\";",
  "  \x7d",
  "",
  "  function applyFormat(fmt, data, icon) \x7b",
  "    var text = fieldText(data, \"text\");",
  "    if (!fmt || fmt === \"\x7b\x7d\" || fmt === \"\x7btext\x7d\") return text;",
  "    var out = fmt.split(\"\x7b\x7d\").join(text);",
  "    var replacements = [",
  "      [\"\x7btext\x7d\", text],",
  "      [\"\x7bicon\x7d\", icon || \"\"],",
  "      [\"\x7bpercentage\x7d\", fieldText(data, \"percentage\")],",
  "      [\"\x7bclass\x7d\", fieldText(data, \"class\")],",
  "      [\"\x7balt\x7d\", fieldText(data, \"alt\")]",
  "    ];",
  "    for (var i = 0; i < replacements.length; i++) \x7b",
  "      out = out.split(replacements[i][0]).join(replacements[i][1]);",
  "    \x7d",
  "    return out;",
  "  \x7d",
  "",
  "  function escapeText(text) \x7b",
  "    if (!escapeMarkup) return text;",
  "    return text.replace(/&/g, \"&amp;\").replace(/</g, \"&lt;\").replace(/>/g, \"&gt;\");",
  "  \x7d",
  "",
  "  function parseOutput(content) \x7b",
  "    var raw = String(content || \"\").trim();",
  "    if (!raw) return;",
  "",
  "    if (parseJson) \x7b",
  "      try \x7b",
  "        var parsed = JSON.parse(raw) || (\x7b\x7d);",
  "        var icon = pickIcon(parsed);",
  "        displayText = escapeText(applyFormat(formatString, parsed, icon));",
  "        displayIcon = icon;",
  "        displayTooltip = fieldText(parsed, \"tooltip\");",
  "      \x7d catch (e) \x7b",
  "        displayText = escapeText(raw);",
  "        displayIcon = \"\";",
  "        displayTooltip = raw;",
  "      \x7d",
  "    \x7d else \x7b",
  "      displayText = escapeText(applyFormat(formatString, (\x7b text: raw \x7d), \"\"));",
  "      displayIcon = \"\";",
  "      displayTooltip = raw;",
  "    \x7d",
  "",
  "    refreshed();",
  "  \x7d",
  "",
  "  Component.onCompleted: \x7b",
  "    if (isStreaming && textCommand.length > 0) \x7b",
  "      runCommand();",
  "    \x7d",
  "  \x7d",
  "\x7d"]

end BarBridge.Plugin
