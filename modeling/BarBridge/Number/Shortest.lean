import BarBridge.Number.Binary64

/-!
# The shortest decimal of a double-precision number

A number is written with the fewest digits that still read back as it. The reals that round to a
given number form an interval around it, with its ends exactly when the significand is even. On the
grids of one, two, … seventeen significant digits in turn, the two points next to the number are
tested against that interval; the first grid with a hit decides, and of two hits the nearer, an
exact tie going to the even digit. Seventeen digits always suffice.

Interval and grid are compared in integer arithmetic: the ends are counted in quarters of the last
binary place.
-/

namespace BarBridge.Binary64

/-- A decimal magnitude `digits * 10 ^ exponent`. -/
structure Digits where
  digits : Nat
  exponent : Int
  deriving DecidableEq, Repr

/-- The lower and upper end of the reals that round to a magnitude, in units of
`2 ^ (exponent - 2)`. Below a power of two the neighbours are twice as dense. -/
def bounds (x : Binary64) : Nat × Nat :=
  let middle := 4 * x.significand
  if x.significand = leastFull ∧ leastExponent < x.exponent then (middle - 1, middle + 2)
  else (middle - 2, middle + 2)

/-- Whether `digits * 10 ^ k` rounds to the magnitude of `x`. -/
def holds (x : Binary64) (digits : Nat) (k : Int) : Bool :=
  let unit := x.exponent - 2
  let point := digits * Nat.pow 10 k.toNat * Nat.pow 2 (-unit).toNat
  let scale := Nat.pow 10 (-k).toNat * Nat.pow 2 unit.toNat
  let low := x.bounds.1 * scale
  let high := x.bounds.2 * scale
  if x.significand % 2 = 0 then decide (low ≤ point) && decide (point ≤ high)
  else decide (low < point) && decide (point < high)

/-- The exponent `e` with `10 ^ e ≤ num / den < 10 ^ (e + 1)`. -/
def decade (num den : Nat) : Int :=
  if den ≤ num then (Nat.repr (num / den)).length - 1
  else
    let j := (Nat.repr (den / num)).length
    if den ≤ num * Nat.pow 10 (j - 1) then -((j - 1 : Nat) : Int) else -(j : Int)

/-- The magnitude in units of `10 ^ k`, as a quotient of naturals. -/
def scaleDecimal (x : Binary64) (k : Int) : Nat × Nat :=
  (x.ratio.1 * Nat.pow 10 (-k).toNat, x.ratio.2 * Nat.pow 10 k.toNat)

/-- The point of the grid `10 ^ k` that stands for `x`, if one of the two next to it does. -/
def onGrid? (x : Binary64) (k : Int) : Option Nat :=
  let (n, d) := x.scaleDecimal k
  let below := n / d
  match x.holds below k, x.holds (below + 1) k with
  | true, true => some (divNearest n d)
  | true, false => some below
  | false, true => some (below + 1)
  | false, false => none

/-- Moves trailing zeros of the digits into the exponent. The fuel is the number of digits. -/
def Digits.trimZeros : Nat → Digits → Digits
  | 0, d => d
  | fuel + 1, d =>
    if d.digits % 10 = 0 then trimZeros fuel ⟨d.digits / 10, d.exponent + 1⟩ else d

/-- The first grid from `count` digits on that holds a point for `x`. -/
def searchGrids (x : Binary64) (top : Int) : Nat → Nat → Digits
  | 0, _ => let (n, d) := x.scaleDecimal (top - 16); ⟨divNearest n d, top - 16⟩
  | fuel + 1, count =>
    let k := top - (count - 1)
    match x.onGrid? k with
    | some digits => Digits.trimZeros 18 ⟨digits, k⟩
    | none => searchGrids x top fuel (count + 1)

/-- The fewest digits that read back as the magnitude of `x`. -/
def shortest (x : Binary64) : Digits :=
  if x.significand = 0 then ⟨0, 0⟩
  else searchGrids x (decade x.ratio.1 x.ratio.2) 17 1

end BarBridge.Binary64
