/-!
# Double-precision numbers, exactly

Fractional numbers of a configuration are held in the 64-bit binary format: a sign, a significand
below `2 ^ 53` and a power of two no smaller than `-1074`. The type keeps these three parts as plain
numbers, so that every operation is integer arithmetic followed by one rounding, and a statement
about it is a statement about integers.

## One rounding

`Binary64.ofRatio` rounds a quotient of naturals to the nearest representable number, a tie going
to the even significand, and answers `none` where the magnitude is too large for the format. Reading
decimal text, turning an integer into a fraction, multiplying and dividing all end in it. There are
no infinities and no NaN: what would become one is `none` where it arises.
-/

namespace BarBridge

/-- The number `± significand * 2 ^ exponent`. -/
structure Binary64 where
  negative : Bool
  significand : Nat
  exponent : Int
  deriving DecidableEq, Repr

namespace Binary64

/-- The natural number nearest to `num / den`; a tie goes to the even one. -/
def divNearest (num den : Nat) : Nat :=
  let quotient := num / den
  let twice := 2 * (num % den)
  if den < twice ∨ (twice = den ∧ quotient % 2 = 1) then quotient + 1 else quotient

/-- The quotient `num / den` divided by `2 ^ e`, again as a quotient of naturals. -/
def scaleBinary (num den : Nat) (e : Int) : Nat × Nat :=
  (num * Nat.pow 2 (-e).toNat, den * Nat.pow 2 e.toNat)

/-- The exponent `e` with `2 ^ e ≤ num / den < 2 ^ (e + 1)`. -/
def binade (num den : Nat) : Int :=
  let e : Int := (num.log2 : Int) - den.log2
  let (n, d) := scaleBinary num den e
  if d ≤ n then e else e - 1

/-- What significands stay below, `2 ^ 53`. -/
def significandLimit : Nat := 9007199254740992

/-- The least significand of full length, `2 ^ 52`. -/
def leastFull : Nat := 4503599627370496

/-- The smallest exponent, at which numbers lose leading digits rather than grow smaller. -/
def leastExponent : Int := -1074

/-- The largest exponent of a finite number. -/
def greatestExponent : Int := 971

/-- A zero of either sign. -/
def zero (negative : Bool) : Binary64 :=
  ⟨negative, 0, leastExponent⟩

/-- The number nearest to `num / den`, or `none` beyond the largest finite one. -/
def ofRatio (negative : Bool) (num den : Nat) : Option Binary64 :=
  if num = 0 then some (zero negative)
  else
    let e := max (binade num den - 52) leastExponent
    let (n, d) := scaleBinary num den e
    let m := divNearest n d
    let (m, e) := if m = significandLimit then (leastFull, e + 1) else (m, e)
    if e ≤ greatestExponent then some ⟨negative, m, e⟩ else none

/-- The number nearest to an integer. -/
def ofInt (i : Int) : Option Binary64 :=
  ofRatio (decide (i < 0)) i.natAbs 1

/-- The magnitude as a quotient of naturals. -/
def ratio (x : Binary64) : Nat × Nat :=
  (x.significand * Nat.pow 2 x.exponent.toNat, Nat.pow 2 (-x.exponent).toNat)

/-- The magnitude without its fraction. -/
def whole (x : Binary64) : Nat :=
  x.ratio.1 / x.ratio.2

def isZero (x : Binary64) : Bool :=
  x.significand == 0

def mul (x y : Binary64) : Option Binary64 :=
  ofRatio (x.negative != y.negative) (x.ratio.1 * y.ratio.1) (x.ratio.2 * y.ratio.2)

/-- Division by a number other than zero. -/
def div (x y : Binary64) : Option Binary64 :=
  ofRatio (x.negative != y.negative) (x.ratio.1 * y.ratio.2) (x.ratio.2 * y.ratio.1)

end Binary64

end BarBridge
