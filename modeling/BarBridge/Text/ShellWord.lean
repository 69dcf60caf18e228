/-!
# Shell words

A value is handed to a command as exactly one word of a POSIX shell command line. A value made only
of characters that the shell never treats specially stands as it is. Every other value, the empty
one included, is put in single quotes, between which only the quote itself means anything; a quote
in the value closes them, stands escaped, and opens them again.
-/

namespace BarBridge.Text

/-- Characters that are never special to the shell. -/
def isShellPlain (c : Char) : Bool :=
  c.isAlphanum || "@%+=:,./-_".toList.contains c

/-- A character between single quotes. -/
def shellEscape (c : Char) : List Char :=
  if c = '\'' then ['\'', '\\', '\'', '\''] else [c]

/-- A value as one shell word. -/
def shellQuote (value : String) : String :=
  if value ≠ "" ∧ value.toList.all isShellPlain then value
  else String.ofList ('\'' :: value.toList.flatMap shellEscape ++ ['\''])

end BarBridge.Text
