import BarBridge.Text.Lines

/-!
# The bar view of a plugin

The component on the bar: it shows text, icon and tooltip of the main view, and runs the commands of
the clicks and the wheel.
-/

namespace BarBridge.Plugin

/-- The template of the file. -/
def barView : String := Text.ofLines [
  "import QtQuick",
  "import QtQuick.Controls",
  "import QtQuick.Layouts",
  "import Quickshell",
  "import qs.Commons",
  "import qs.Modules.Bar.Extras",
  "import qs.Services.UI",
  "import qs.Widgets",
  "",
  "Item \x7b",
  "  id: root",
  "",
  "  property var pluginApi: null",
  "  property ShellScreen screen",
  "",
  "  property string widgetId: \"\"",
  "  property string section: \"\"",
  "  property int sectionWidgetIndex: -1",
  "  property int sectionWidgetsCount: 0",
  "  property real scaling: 1.0",
  "",
  "  readonly property var pluginMain: pluginApi?.mainInstance",
  "",
  "  readonly property string barPosition: Settings.data.bar.position",
  "  readonly property bool isBarVertical: barPosition === \"left\" || barPosition === \"right\"",
  "",
  "  readonly property string pillText: isBarVertical ? \"\" : (pluginMain?.displayText || \"\")",
  "  readonly property string iconName: pluginMain?.displayIcon || \"\"",
  "",
  "  readonly property bool refreshOnEvent: \x7b\x7b exec_on_event \x7d\x7d",
  "",
  "  implicitWidth: pill.width",
  "  implicitHeight: pill.height",
  "",
  "  BarPill \x7b",
  "    id: pill",
  "",
  "    screen: root.screen",
  "    density: Settings.data.bar.density",
  "    oppositeDirection: BarService.getPillDirection(root)",
  "    icon: root.iconName",
  "    text: root.pillText",
  "    tooltipText: root.pluginMain?.displayTooltip || root.pluginMain?.displayText || \"\"",
  "    forceOpen: !root.isBarVertical && (root.pluginMain?.displayText || \"\") !== \"\"",
  "    onClicked: root.runHandler(\"\x7b\x7b on_click \x7d\x7d\")",
  "    onRightClicked: root.runHandler(\"\x7b\x7b on_click_right \x7d\x7d\")",
  "    onMiddleClicked: root.runHandler(\"\x7b\x7b on_click_middle \x7d\x7d\")",
  "  \x7d",
  "",
  "  function runHandler(cmd) \x7b",
  "    if (!cmd) return;",
  "    Quickshell.execDetached([\"sh\", \"-c\", cmd]);",
  "    if (refreshOnEvent) \x7b",
  "      pluginMain?.refresh();",
  "    \x7d",
  "  \x7d",
  "",
  "  WheelHandler \x7b",
  "    enabled: true",
  "    onWheel: event => \x7b",
  "      if (event.angleDelta.y > 0) \x7b",
  "        root.runHandler(\"\x7b\x7b on_scroll_up \x7d\x7d\");",
  "      \x7d else if (event.angleDelta.y < 0) \x7b",
  "        root.runHandler(\"\x7b\x7b on_scroll_down \x7d\x7d\");",
  "      \x7d",
  "    \x7d",
  "  \x7d",
  "\x7d"]

end BarBridge.Plugin
