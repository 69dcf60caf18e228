import BarBridge.Text.Lines

/-!
# The readme of a plugin

What the plugin was made from, how it is put to use, and the defaults it starts with.
-/

namespace BarBridge.Plugin

/-- The template of the file. -/
def readme : String := Text.ofLines [
  "# \x7b\x7b display_name \x7d\x7d",
  "",
  "Converted from Waybar `custom/\x7b\x7b module_name \x7d\x7d`.",
  "",
  "## Usage",
  "",
  "1. Update settings in Noctalia if the command path or interval needs tuning.",
  "2. Add the bar widget through Noctalia settings.",
  "",
  "## Defaults",
  "",
  "- Interval mode: `\x7b\x7b interval_mode \x7d\x7d`",
  "- Poll interval: \x7b\x7b interval \x7d\x7ds",
  "- Restart interval: \x7b\x7b restart_interval_ms \x7d\x7dms",
  "- Parse JSON: \x7b\x7b parse_json \x7d\x7d",
  "",
  "## Notes",
  "",
  "- Interval mode `poll` uses a timer, `once` assumes a long-running or signal-driven command.",
  "- Restart interval is only used for `once` mode.",
  "- Settings saved in Noctalia take precedence over the defaults in `manifest.json`."]

end BarBridge.Plugin
