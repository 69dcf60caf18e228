import BarBridge.Json.Value
import BarBridge.Number.Layout

/-!
# Writing a JSON value

Two forms are written. The compact form has no blanks. The pretty form puts every item and member
on a line of its own, two blanks deeper than the brackets around it, and leaves empty containers
closed up. In both, a string escapes only what it must: the quote, the backslash and the control
characters below the space; everything else stands as it is.
-/

namespace BarBridge

/-- Whole numbers keep a point, and the positional form reaches from `0.00001` to just below
`10 ^ 16`. -/
def Json.layout : Layout where
  firstPositional := -5
  lastPositional := 15
  wholeEnding := ['.', '0']
  exponentMark := ['e']
  plus := ['+']

/-- The text of a number. -/
def Number.write : Number → List Char
  | int i => if i < 0 then '-' :: Layout.digitsOf i.natAbs else Layout.digitsOf i.natAbs
  | real x => Json.layout.write x

namespace Json

/-- A digit of a small hexadecimal number. -/
def hexDigit (n : Nat) : Char :=
  if n < 10 then Char.ofNat ('0'.toNat + n) else Char.ofNat ('a'.toNat + (n - 10))

/-- A character inside a string literal. -/
def escapeChar (c : Char) : List Char :=
  if c = '"' then ['\\', '"']
  else if c = '\\' then ['\\', '\\']
  else if c.toNat < 0x20 then
    if c = '\x08' then ['\\', 'b']
    else if c = '\t' then ['\\', 't']
    else if c = '\n' then ['\\', 'n']
    else if c = '\x0c' then ['\\', 'f']
    else if c = '\r' then ['\\', 'r']
    else ['\\', 'u', '0', '0', hexDigit (c.toNat / 16), hexDigit (c.toNat % 16)]
  else [c]

/-- A string literal. -/
def quote (s : String) : List Char :=
  '"' :: s.toList.flatMap escapeChar ++ ['"']

/-! ## The compact form -/

mutual

def compact : Json → List Char
  | null => ['n', 'u', 'l', 'l']
  | bool true => ['t', 'r', 'u', 'e']
  | bool false => ['f', 'a', 'l', 's', 'e']
  | number n => n.write
  | string s => quote s
  | array [] => ['[', ']']
  | array (v :: vs) => '[' :: compact v ++ compactItems vs ++ [']']
  | object [] => ['{', '}']
  | object (m :: ms) => '{' :: quote m.1 ++ ':' :: compact m.2 ++ compactMembers ms ++ ['}']

/-- Further items, each behind a comma. -/
def compactItems : List Json → List Char
  | [] => []
  | v :: vs => ',' :: compact v ++ compactItems vs

/-- Further members, each behind a comma. -/
def compactMembers : List (String × Json) → List Char
  | [] => []
  | m :: ms => ',' :: quote m.1 ++ ':' :: compact m.2 ++ compactMembers ms

end

/-! ## The pretty form -/

/-- A new line at a depth. -/
def newline (depth : Nat) : List Char :=
  '\n' :: List.replicate (2 * depth) ' '

mutual

/-- A value whose first line is already indented to `depth`. -/
def prettyAt (depth : Nat) : Json → List Char
  | null => ['n', 'u', 'l', 'l']
  | bool true => ['t', 'r', 'u', 'e']
  | bool false => ['f', 'a', 'l', 's', 'e']
  | number n => n.write
  | string s => quote s
  | array [] => ['[', ']']
  | array (v :: vs) =>
    '[' :: newline (depth + 1) ++ prettyAt (depth + 1) v ++ prettyItems (depth + 1) vs ++
      newline depth ++ [']']
  | object [] => ['{', '}']
  | object (m :: ms) =>
    '{' :: newline (depth + 1) ++ quote m.1 ++ ':' :: ' ' :: prettyAt (depth + 1) m.2 ++
      prettyMembers (depth + 1) ms ++ newline depth ++ ['}']

/-- Further items, each behind a comma and on a line of its own. -/
def prettyItems (depth : Nat) : List Json → List Char
  | [] => []
  | v :: vs => ',' :: newline depth ++ prettyAt depth v ++ prettyItems depth vs

/-- Further members, each behind a comma and on a line of its own. -/
def prettyMembers (depth : Nat) : List (String × Json) → List Char
  | [] => []
  | m :: ms =>
    ',' :: newline depth ++ quote m.1 ++ ':' :: ' ' :: prettyAt depth m.2 ++ prettyMembers depth ms

end

/-- The pretty form of a whole document. -/
def pretty (v : Json) : List Char :=
  prettyAt 0 v

end Json

end BarBridge
