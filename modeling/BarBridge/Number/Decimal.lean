import BarBridge.Number.Binary64

/-!
# Decimal numbers in text

The general way of writing a number in decimal: an optional sign, digits with at most one point
among or beside them, and an optional power of ten. At least one digit must stand before or after
the point. The value is exact; `Decimal.toBinary64` rounds it once.

A power of ten may be written with any number of digits, so magnitudes beyond the reach of the
binary format are recognised from the position of the leading digit, before any power is formed.
-/

namespace BarBridge

/-- The number `± digits * 10 ^ exponent`. -/
structure Decimal where
  negative : Bool
  digits : Nat
  exponent : Int
  deriving DecidableEq, Repr

namespace Decimal

/-- The value of a run of decimal digits after what was read before it. -/
def ofDigits (before : Nat) (digits : List Char) : Nat :=
  digits.foldl (fun n c ↦ 10 * n + (c.toNat - '0'.toNat)) before

/-- Separates a leading sign; the flag says whether it is a minus. -/
def splitSign : List Char → Bool × List Char
  | '-' :: rest => (true, rest)
  | '+' :: rest => (false, rest)
  | rest => (false, rest)

/-- The power of ten at the end of a number: nothing, or a mark, an optional sign and digits. -/
def readPower : List Char → Option Int
  | [] => some 0
  | c :: rest =>
    if c = 'e' ∨ c = 'E' then
      let (negative, digits) := splitSign rest
      if digits ≠ [] ∧ digits.all Char.isDigit then
        let n : Int := ofDigits 0 digits
        some (if negative then -n else n)
      else none
    else none

/-- Reads a whole text as a decimal number. -/
def read? (text : List Char) : Option Decimal :=
  let (negative, rest) := splitSign text
  let front := rest.takeWhile Char.isDigit
  let rest := rest.dropWhile Char.isDigit
  let (back, rest) :=
    match rest with
    | '.' :: rest => (rest.takeWhile Char.isDigit, rest.dropWhile Char.isDigit)
    | rest => ([], rest)
  if front = [] ∧ back = [] then none
  else
    (readPower rest).map fun power ↦
      ⟨negative, ofDigits (ofDigits 0 front) back, power - back.length⟩

/-- The power of ten just above the magnitude of a number other than zero. -/
def reach (x : Decimal) : Int :=
  x.exponent + (Nat.repr x.digits).length

/-- The double-precision number nearest to a decimal one, or `none` where it is out of range. -/
def toBinary64 (x : Decimal) : Option Binary64 :=
  if x.digits = 0 then some (Binary64.zero x.negative)
  else if 310 < x.reach then none
  else if x.reach < -330 then some (Binary64.zero x.negative)
  else
    Binary64.ofRatio x.negative (x.digits * Nat.pow 10 x.exponent.toNat)
      (Nat.pow 10 (-x.exponent).toNat)

end Decimal

end BarBridge
