import BarBridge.Text.Base64
import BarBridge.Text.Lines
import BarBridge.Text.ShellWord
import BarBridge.Json.Writer

/-!
# Filter programs

A widget shows the output of its command as it is, so a module with a format or with icons needs a
program behind its command that applies them. There are two: one for output in object form, which
also picks an icon by percentage, and one for plain text. Both are fixed texts; what varies reaches
them as base64 arguments, so no character of a format or icon is ever read as program or shell text.

A filter reads the output once the command has ended, and the status of the command is not lost in a
pipe: the output is captured first and then handed on.
-/

namespace BarBridge.Filter

/-- Reads an object with text, tooltip, percentage, icon, class and alternative; picks an icon,
applies the format, and writes an object with text, tooltip and icon. Its arguments are the list of
icons and the format. -/
def jsonProgram : String :=
  Text.ofLines [
    "import base64, json, math, sys",
    "icons = json.loads(base64.b64decode(sys.argv[1]).decode('utf-8') or '[]')",
    "fmt = base64.b64decode(sys.argv[2]).decode('utf-8') or '\x7b\x7d'",
    "raw = sys.stdin.read().strip()",
    "if not raw:",
    "    sys.exit(0)",
    "try:",
    "    data = json.loads(raw)",
    "except ValueError:",
    "    data = None",
    "if not isinstance(data, dict):",
    "    data = \x7b'text': raw, 'tooltip': raw\x7d",
    "def field(key):",
    "    value = data.get(key)",
    "    return '' if value is None else str(value)",
    "icon = field('icon')",
    "if icons:",
    "    try:",
    "        pct = float(data.get('percentage'))",
    "    except (TypeError, ValueError):",
    "        pct = None",
    "    if pct is not None and math.isfinite(pct):",
    "        idx = math.floor(pct * len(icons) / 100)",
    "        icon = icons[min(max(idx, 0), len(icons) - 1)]",
    "    elif not icon:",
    "        icon = icons[0]",
    "text = field('text')",
    "if fmt in ('\x7b\x7d', '\x7btext\x7d'):",
    "    display = text",
    "else:",
    "    display = fmt.replace('\x7b\x7d', text)",
    "    for key, value in (('\x7btext\x7d', text), ('\x7bicon\x7d', icon), ('\x7bpercentage\x7d', field('percentage')), ('\x7bclass\x7d', field('class')), ('\x7balt\x7d', field('alt'))):",
    "        display = display.replace(key, value)",
    "sys.stdout.write(json.dumps(\x7b'text': display, 'tooltip': field('tooltip'), 'icon': icon\x7d))"]

/-- Reads plain text and puts it into the format. Its argument is the format. -/
def plainProgram : String :=
  Text.ofLines [
    "import base64, sys",
    "fmt = base64.b64decode(sys.argv[1]).decode('utf-8') or '\x7b\x7d'",
    "raw = sys.stdin.read().rstrip('\\n')",
    "if not raw:",
    "    sys.exit(0)",
    "sys.stdout.write(fmt.replace('\x7b\x7d', raw).replace('\x7btext\x7d', raw))"]

/-- A value as an argument: its UTF-8 form in base64, as one shell word. -/
def argument (value : List Char) : String :=
  Text.shellQuote (String.ofList (Text.base64 (Text.utf8 value)))

/-- A list of icons as JSON. -/
def iconList (icons : List String) : List Char :=
  (Json.array (icons.map .string)).compact

/-- Captures the output of a command and hands it to an interpreter, up to the program. -/
def capture (exec : String) : String :=
  "output=$(" ++ exec ++ "); printf '%s' \"$output\" | python3 -c"

/-- A command whose object output goes through the icons and the format. -/
def json (exec format : String) (icons : List String) : String :=
  capture exec ++ " " ++ Text.shellQuote jsonProgram ++ " " ++ argument (iconList icons) ++ " " ++
    argument format.toList

/-- A command whose plain output goes through the format. -/
def plain (exec format : String) : String :=
  capture exec ++ " " ++ Text.shellQuote plainProgram ++ " " ++ argument format.toList

end BarBridge.Filter
