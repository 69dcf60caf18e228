import BarBridge.Number.Binary64

/-!
# JSON values

The dynamic values of a configuration. An object keeps its members in the order in which their keys
first appear, because that order is the order of the modules on the bar; `put` therefore replaces
the value of a known key in place and appends a new one at the end.

A number is an integer where it was written as one and fits 64 bits, signed or unsigned, and a
double-precision number otherwise. The two stay apart: `1` and `1.0` are different values and are
written differently.
-/

namespace BarBridge

inductive Number where
  | int (value : Int)
  | real (value : Binary64)
  deriving DecidableEq, Repr

inductive Json where
  | null
  | bool (value : Bool)
  | number (value : Number)
  | string (value : String)
  | array (items : List Json)
  | object (members : List (String × Json))
  deriving Repr

namespace Number

/-- A number in double precision. No 64-bit integer is out of its range. -/
def toBinary64 : Number → Option Binary64
  | int i => Binary64.ofInt i
  | real x => some x

/-- An integer that fits 64 bits with a sign. -/
def toSigned? : Number → Option Int
  | int i => if -9223372036854775808 ≤ i ∧ i ≤ 9223372036854775807 then some i else none
  | real _ => none

/-- An integer that fits 64 bits without a sign. -/
def toUnsigned? : Number → Option Nat
  | int i => if 0 ≤ i ∧ i < UInt64.size then some i.toNat else none
  | real _ => none

end Number

namespace Json

/-- Gives `key` the value `v`: in place where the key is known, at the end where it is new. -/
def put (key : String) (v : Json) : List (String × Json) → List (String × Json)
  | [] => [(key, v)]
  | m :: ms => if m.1 = key then (key, v) :: ms else m :: put key v ms

def string? : Json → Option String
  | string s => some s
  | _ => none

def bool? : Json → Option Bool
  | bool b => some b
  | _ => none

def number? : Json → Option Number
  | number n => some n
  | _ => none

def object? : Json → Option (List (String × Json))
  | object ms => some ms
  | _ => none

/-! ## Keys that are new

A list of members with different keys is built up again by putting them in one after the other,
since each of them is new when its turn comes. -/

theorem put_of_notMem {key : String} (v : Json) {ms : List (String × Json)}
    (h : key ∉ ms.map Prod.fst) : put key v ms = ms ++ [(key, v)] := by
  induction ms with
  | nil => rfl
  | cons m ms ih =>
    simp only [List.map_cons, List.mem_cons, not_or] at h
    rw [put, if_neg (Ne.symm h.1), ih h.2]
    rfl

end Json

end BarBridge
