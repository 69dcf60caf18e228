import BarBridge.Json.Value

/-!
# The value of a numeral

A numeral of the JSON grammar has digits before the point, perhaps digits after it, and perhaps a
power of ten. Without point and power, and within 64 bits, it denotes an integer. Every other
numeral denotes a double-precision number, computed as follows: as many leading digits as fit 64
bits form a significand, the digits left over before the point and those taken after it adjust the
power of ten, and the significand is then multiplied or divided by that power of ten, each of the
three steps rounding once. The result may be one unit away from the nearest number; what the rule
buys is that a numeral of any length costs no more than a short one.

A magnitude beyond the format is refused, and so is a power of ten of more than 31 bits unless the
numeral is zero or the power negative. The refusal says how many digits were left unread.
-/

namespace BarBridge.Json

/-- The parts of a numeral, digits in reading order. -/
structure Numeral where
  negative : Bool
  whole : List Nat
  /-- Digits after the point; empty where there is no point. -/
  fraction : List Nat
  /-- Sign and digits of the power of ten. -/
  power : Option (Bool × List Nat)
  deriving DecidableEq, Repr

namespace Numeral

/-- The largest significand. -/
def wordMax : Nat := UInt64.size - 1

/-- The largest power of ten that is read. -/
def powerMax : Nat := 2147483647

/-- The largest power of ten that the binary format can hold. -/
def tenMax : Nat := 308

/-- Takes digits before the point into the significand while it fits, and counts the rest. -/
def takeWhole (significand : Nat) : List Nat → Nat × Nat
  | [] => (significand, 0)
  | d :: ds =>
    if 10 * significand + d ≤ wordMax then takeWhole (10 * significand + d) ds
    else (significand, ds.length + 1)

/-- Takes digits after the point while the significand fits, and counts those taken. -/
def takeFraction (significand taken : Nat) : List Nat → Nat × Nat
  | [] => (significand, taken)
  | d :: ds =>
    if 10 * significand + d ≤ wordMax then takeFraction (10 * significand + d) (taken + 1) ds
    else (significand, taken)

/-- The digits of a power of ten, or the number of digits left when it grows too large. -/
def takePower (power : Nat) : List Nat → Except Nat Nat
  | [] => .ok power
  | d :: ds =>
    if 10 * power + d ≤ powerMax then takePower (10 * power + d) ds else .error ds.length

/-- A power of ten in double precision. -/
def ten? (k : Nat) : Option Binary64 :=
  Binary64.ofRatio false (Nat.pow 10 k) 1

/-- Divides by a power of ten, in steps that the format can hold. -/
def lower (x : Binary64) (k : Nat) : Option Binary64 :=
  if k ≤ tenMax then do x.div (← ten? k)
  else if x.isZero then some x
  else do lower (← x.div (← ten? tenMax)) (k - tenMax)
termination_by k
decreasing_by simp only [tenMax] at *; omega

/-- Scales by a power of ten; `none` is a magnitude beyond the format. -/
def scale (x : Binary64) (power : Int) : Option Binary64 :=
  if power < 0 then lower x power.natAbs
  else if power.toNat ≤ tenMax then do x.mul (← ten? power.toNat)
  else if x.isZero then some x
  else none

/-- Whether a numeral has neither point nor power. -/
def isPlain (n : Numeral) : Bool :=
  n.fraction.isEmpty && n.power.isNone

/-- An integer numeral that fits 64 bits. A minus before zero makes a fraction, zero having no sign
as an integer. -/
def integer? (n : Numeral) : Option Int :=
  let (significand, left) := takeWhole 0 n.whole
  if n.isPlain && left == 0 then
    if n.negative then
      if 1 ≤ significand ∧ significand ≤ 9223372036854775808 then some (-significand) else none
    else some significand
  else none

/-- The number that a significand and a power of ten denote. -/
def real (negative : Bool) (significand : Nat) (power : Int) : Except Nat Number :=
  match Binary64.ofRatio false significand 1 >>= (scale · power) with
  | some x => .ok (.real { x with negative })
  | none => .error 0

/-- The value of a numeral, or the number of digits unread when it is found out of range. -/
def value (n : Numeral) : Except Nat Number :=
  match n.integer? with
  | some i => .ok (.int i)
  | none =>
    let (significand, left) := takeWhole 0 n.whole
    let (significand, taken) := takeFraction significand 0 n.fraction
    let shift : Int := left - taken
    match n.power with
    | none => real n.negative significand shift
    | some (negative, digits) =>
      match takePower 0 digits with
      | .ok k => real n.negative significand (if negative then shift - k else shift + k)
      | .error unread =>
        if significand = 0 ∨ negative then .ok (.real (Binary64.zero n.negative))
        else .error unread

end Numeral

end BarBridge.Json
