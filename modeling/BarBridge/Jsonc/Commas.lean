import BarBridge.Text.Blank

/-!
# Dangling commas

A comma may stand behind the last item of an array or the last member of an object. It is deleted
when the closing bracket is reached: if the last character written that is not blank is a comma,
that comma goes, while the blanks behind it stay. Only one comma is deleted for a bracket.

The text is expected to be free of comments. Brackets and commas inside string literals are left
alone; what has been written so far is kept newest character first, so that looking back from a
bracket is looking at the head of a list.
-/

namespace BarBridge.Jsonc

/-- Where the comma scanner stands. -/
inductive Literal where
  | outside
  | inside
  /-- In a string, behind a backslash. -/
  | escape
  deriving DecidableEq, Repr

/-- A text without the comma that is its last character but for blanks; newest character first. -/
def dropDangling (written : List Char) : List Char :=
  match written.dropWhile Text.isBlank with
  | ',' :: earlier => written.takeWhile Text.isBlank ++ earlier
  | _ => written

/-- The text written, newest character first, when the rest is read from a given place on. -/
def closeCommas (written : List Char) : Literal → List Char → List Char
  | _, [] => written
  | .outside, c :: cs =>
    if c = ']' ∨ c = '}' then closeCommas (c :: dropDangling written) .outside cs
    else closeCommas (c :: written) (if c = '"' then .inside else .outside) cs
  | .inside, c :: cs =>
    closeCommas (c :: written)
      (if c = '\\' then .escape else if c = '"' then .outside else .inside) cs
  | .escape, c :: cs => closeCommas (c :: written) .inside cs

/-- A text without the commas that dangle before a closing bracket. -/
def stripTrailingCommas (text : List Char) : List Char :=
  (closeCommas [] .outside text).reverse

end BarBridge.Jsonc
