/-!
# Comments

A configuration may hold line comments, from `//` to the end of the line, and block comments, from
`/*` to the next `*/`. They are deleted, not blanked: the line feed behind a line comment stays,
because it belongs to the line, and nothing takes the place of a block comment. A block comment that
is never closed runs to the end of the text.

Inside a string literal nothing is a comment. A literal runs to the next quote that no backslash
escapes, and an unclosed one runs to the end of the text.
-/

namespace BarBridge.Jsonc

/-- Where the comment scanner stands. -/
inductive Region where
  | code
  | string
  /-- In a string, behind a backslash. -/
  | escape
  | line
  | block
  deriving DecidableEq, Repr

/-- A text without its comments, read from a given region on. -/
def dropComments : Region → List Char → List Char
  | _, [] => []
  | .code, '/' :: '/' :: cs => dropComments .line cs
  | .code, '/' :: '*' :: cs => dropComments .block cs
  | .code, c :: cs => c :: dropComments (if c = '"' then .string else .code) cs
  | .string, c :: cs =>
    c :: dropComments (if c = '\\' then .escape else if c = '"' then .code else .string) cs
  | .escape, c :: cs => c :: dropComments .string cs
  | .line, c :: cs => if c = '\n' then c :: dropComments .code cs else dropComments .line cs
  | .block, '*' :: '/' :: cs => dropComments .code cs
  | .block, _ :: cs => dropComments .block cs

/-- A text without its comments. -/
def stripComments (text : List Char) : List Char :=
  dropComments .code text

end BarBridge.Jsonc
