import BarBridge.Number.Shortest

/-!
# Laying out a decimal number

Given the digits of a number, what remains are choices of a format: where the positional form ends
and the scientific one begins, what marks a whole number as a fraction, and how an exponent is
signed. A `Layout` collects them, and a document format states its own as a value.
-/

namespace BarBridge

/-- How the digits of a number are set out. -/
structure Layout where
  /-- The least power of ten of the leading digit that is written positionally. -/
  firstPositional : Int
  /-- The greatest such power. -/
  lastPositional : Int
  /-- What follows a whole number in positional form. -/
  wholeEnding : List Char
  /-- What separates digits and exponent. -/
  exponentMark : List Char
  /-- What precedes an exponent that is not negative. -/
  plus : List Char

namespace Layout

/-- Decimal digits of a natural number. -/
def digitsOf (n : Nat) : List Char :=
  (Nat.repr n).toList

/-- The positional form of `digits * 10 ^ exponent`. -/
def positional (l : Layout) (digits : List Char) (exponent : Int) : List Char :=
  if 0 ≤ exponent then digits ++ List.replicate exponent.toNat '0' ++ l.wholeEnding
  else
    let places := (-exponent).toNat
    if places < digits.length then
      digits.take (digits.length - places) ++ '.' :: digits.drop (digits.length - places)
    else ['0', '.'] ++ List.replicate (places - digits.length) '0' ++ digits

/-- The scientific form, with `power` the power of ten of the leading digit. -/
def scientific (l : Layout) (digits : List Char) (power : Int) : List Char :=
  digits.take 1 ++ (if digits.length ≤ 1 then [] else '.' :: digits.drop 1) ++ l.exponentMark ++
    (if power < 0 then ['-'] else l.plus) ++ digitsOf power.natAbs

/-- The text of a number. -/
def write (l : Layout) (x : Binary64) : List Char :=
  let shortest := x.shortest
  let digits := digitsOf shortest.digits
  let power := shortest.exponent + digits.length - 1
  (if x.negative then ['-'] else []) ++
    if l.firstPositional ≤ power ∧ power ≤ l.lastPositional then
      l.positional digits shortest.exponent
    else l.scientific digits power

end Layout

end BarBridge
