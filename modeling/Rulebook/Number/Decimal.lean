import Rulebook.Number.Double

set_option autoImplicit false

/-!
Decimal notation of binary64 numbers. Reading rounds the exact decimal to the nearest number.
Writing takes the fewest digits that read back as the same number, and of those the nearest.
-/

namespace Rulebook

/-- The number `coefficient · 10^exponent`. -/
structure Decimal where
  coefficient : Nat
  exponent : Int
  deriving DecidableEq

namespace Decimal

def digitCount (n : Nat) : Nat := (Nat.repr n).length

/-- Without trailing zeros in the coefficient; at most `fuel` of them are taken off. -/
def stripZeros : Nat → Decimal → Decimal
  | 0, d => d
  | fuel + 1, d =>
    if d.coefficient ≠ 0 ∧ d.coefficient % 10 = 0 then
      stripZeros fuel ⟨d.coefficient / 10, d.exponent + 1⟩
    else d

end Decimal

namespace Double

/-- Decimals beyond 10^400 are infinite and those below 10^-400 are zero, so the powers of ten that
are formed stay small. -/
def ofDecimal (negative : Bool) (d : Decimal) : Double :=
  if d.coefficient = 0 then finite negative 0
  else if 400 ≤ d.exponent then infinite negative
  else if d.exponent + Decimal.digitCount d.coefficient ≤ -400 then finite negative 0
  else if 0 ≤ d.exponent then
    ofRatio negative (d.coefficient * Nat.pow 10 d.exponent.toNat * unitsPerOne) 1
  else ofRatio negative (d.coefficient * unitsPerOne) (Nat.pow 10 (-d.exponent).toNat)

/-- 5^1074: a unit is this many times 10^-1074. -/
def fiveScale : Nat := Nat.pow (Nat.pow 5 179) 6

/-- Twice the reals that round to a positive number of units, in multiples of 10^-1074. The ends
belong to the interval when the number's own significand is even. The gap below a power of two is
half as wide as the gap above it. -/
structure RoundingInterval where
  low : Nat
  high : Nat
  closed : Bool

def roundingInterval (units : Nat) : RoundingInterval :=
  let step := spacing units
  let below := if units = Nat.pow 2 units.log2 ∧ 1 < step then step / 2 else step
  ⟨(2 * units - below) * fiveScale, (2 * units + step) * fiveScale, units / step % 2 == 0⟩

def RoundingInterval.contains (r : RoundingInterval) (twice : Nat) : Bool :=
  if r.closed then r.low ≤ twice && twice ≤ r.high else r.low < twice && twice < r.high

/-- Of the two neighbours of `n` among the multiples of `grid`, the multiple that lies in the
interval; of two the nearer one, and the even one on a tie. -/
def nearestOnGrid? (r : RoundingInterval) (n grid : Nat) : Option Nat :=
  let q := n / grid
  let down := r.contains (2 * (q * grid))
  let up := r.contains (2 * ((q + 1) * grid))
  if down && up then
    let excess := 2 * (n - q * grid)
    some (if excess < grid || (excess == grid && q % 2 == 0) then q else q + 1)
  else if down then some q
  else if up then some (q + 1)
  else none

/-- Tries `tried + 1`, `tried + 2`, … digits; seventeen always suffice. -/
def searchDigits (r : RoundingInterval) (n size : Nat) : Nat → Nat → Decimal
  | 0, _ => ⟨n, -1074⟩
  | fuel + 1, tried =>
    let places := size - (tried + 1)
    match nearestOnGrid? r n (Nat.pow 10 places) with
    | some q => ⟨q, (places : Int) - 1074⟩
    | none => searchDigits r n size fuel (tried + 1)

/-- The shortest decimal that reads back as a positive number of units. -/
def shortest (units : Nat) : Decimal :=
  let n := units * fiveScale
  let d := searchDigits (roundingInterval units) n (Decimal.digitCount n) 17 0
  d.stripZeros (Decimal.digitCount d.coefficient)

end Double

end Rulebook
