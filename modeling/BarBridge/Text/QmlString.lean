/-!
# String literals of QML

Inside double quotes a backslash, a double quote, a line feed and a carriage return are written with
a backslash; every other character stands for itself. What is written this way can neither end the
literal nor begin a new line.
-/

namespace BarBridge.Text

/-- A character inside a double-quoted literal. -/
def qmlEscape (c : Char) : List Char :=
  if c = '\\' then ['\\', '\\']
  else if c = '"' then ['\\', '"']
  else if c = '\n' then ['\\', 'n']
  else if c = '\r' then ['\\', 'r']
  else [c]

/-- A text for the inside of a double-quoted literal. -/
def qmlString (value : String) : String :=
  String.ofList (value.toList.flatMap qmlEscape)

end BarBridge.Text
