/-!
# Tables of TOML

A TOML document is a table of tables. A table can be stated in pieces: by a header that names it, by
a header that only leads through it, by keys with dots, or at once between braces. What may still be
added to it depends on which of these it was, so a table remembers its origin.

## What may be stated again

No key is given a value twice. A header may name a table that earlier headers only led through, and
no other that exists already. A key with dots adds to a table that nothing but such keys and passing
headers made. A table between braces is complete.
-/

namespace BarBridge.Toml

/-- What a table was first stated by, or named by since. -/
inductive Origin where
  /-- A header that names it. -/
  | header
  /-- A header that leads through it. -/
  | passage
  /-- A key with dots that leads through it. -/
  | dots
  | braces
  deriving DecidableEq, Repr

inductive Value where
  | integer (value : Int)
  | string (value : String)
  | array (items : List Value)
  | table (origin : Origin) (members : List (String × Value))
  deriving Repr

/-- The members of a table, with distinct keys. -/
abbrev Members := List (String × Value)

namespace Members

/-- The members with another value for a key that they have. -/
def replace (ms : Members) (key : String) (v : Value) : Members :=
  ms.map fun m ↦ if m.1 = key then (key, v) else m

/-- Gives a dotted key its value. -/
def define? (v : Value) : List String → Members → Option Members
  | [], _ => none
  | [k], ms => if (ms.lookup k).isSome then none else some (ms ++ [(k, v)])
  | k :: ks, ms =>
    match ms.lookup k with
    | none => (define? v ks []).map fun inner ↦ ms ++ [(k, .table .dots inner)]
    | some (.table .dots inner) => (define? v ks inner).map (ms.replace k <| .table .dots ·)
    | some (.table .passage inner) => (define? v ks inner).map (ms.replace k <| .table .passage ·)
    | some _ => none

/-- Gives a dotted key its value in the table that a path leads to. -/
def defineIn? (key : List String) (v : Value) : List String → Members → Option Members
  | [], ms => ms.define? v key
  | k :: ks, ms =>
    match ms.lookup k with
    | some (.table origin inner) =>
      (defineIn? key v ks inner).map (ms.replace k <| .table origin ·)
    | _ => none

/-- Names a table by a header. -/
def openTable? : List String → Members → Option Members
  | [], _ => none
  | [k], ms =>
    match ms.lookup k with
    | none => some (ms ++ [(k, .table .header [])])
    | some (.table .passage inner) => some (ms.replace k (.table .header inner))
    | some _ => none
  | k :: ks, ms =>
    match ms.lookup k with
    | none => (openTable? ks []).map fun inner ↦ ms ++ [(k, .table .passage inner)]
    | some (.table .braces _) => none
    | some (.table origin inner) => (openTable? ks inner).map (ms.replace k <| .table origin ·)
    | some _ => none

end Members

end BarBridge.Toml
