set_option autoImplicit false

/-!
Binary64 numbers. A finite number is a whole number of units of 2^-1074, the smallest positive one,
so sums, products and quotients are exact ratios of natural numbers that are then rounded once, to
the nearest representable number and to the even one of two. Zero keeps its sign.
-/

namespace Rulebook

inductive Double where
  | nan
  | infinite (negative : Bool)
  | finite (negative : Bool) (units : Nat)
  deriving DecidableEq, Inhabited

namespace Double

/-- 2^1074, written with small exponents. -/
def unitsPerOne : Nat := Nat.pow (Nat.pow 2 179) 6

/-- 2^1024 in units: the first magnitude that is too large. -/
def unitsLimit : Nat := unitsPerOne * Nat.pow (Nat.pow 2 256) 4

/-- The distance between neighbours at a magnitude: numbers have 53 significant bits. -/
def spacing (units : Nat) : Nat := Nat.pow 2 (units.log2 + 1 - 53)

/-- The nearest whole number to a ratio, the even one of two. -/
def divNearest (num den : Nat) : Nat :=
  let q := num / den
  let r := num % den
  if 2 * r < den || (2 * r == den && q % 2 == 0) then q else q + 1

def ofRatio (negative : Bool) (num den : Nat) : Double :=
  let step := spacing (num / den)
  let units := divNearest num (den * step) * step
  if units < unitsLimit then finite negative units else infinite negative

def zero : Double := finite false 0

def isZero : Double → Bool
  | finite _ units => units == 0
  | _ => false

def isFinite : Double → Bool
  | finite _ _ => true
  | _ => false

def neg : Double → Double
  | nan => nan
  | infinite s => infinite !s
  | finite s units => finite (!s) units

/-- The signed number of units. -/
def signedUnits (negative : Bool) (units : Nat) : Int := if negative then -(units : Int) else units

/-- A sum that cancels is positive zero. -/
def add : Double → Double → Double
  | nan, _ | _, nan => nan
  | infinite s, infinite t => if s = t then infinite s else nan
  | infinite s, finite _ _ | finite _ _, infinite s => infinite s
  | finite s a, finite t b =>
    let sum := signedUnits s a + signedUnits t b
    if sum = 0 then finite (s && t) 0 else ofRatio (sum < 0) sum.natAbs 1

def sub (x y : Double) : Double := add x y.neg

def mul : Double → Double → Double
  | nan, _ | _, nan => nan
  | infinite s, infinite t => infinite (s != t)
  | infinite s, finite t a | finite t a, infinite s => if a = 0 then nan else infinite (s != t)
  | finite s a, finite t b => ofRatio (s != t) (a * b) unitsPerOne

/-- Division by zero gives no number; callers exclude it. -/
def div : Double → Double → Double
  | nan, _ | _, nan => nan
  | infinite _, infinite _ => nan
  | infinite s, finite t _ => infinite (s != t)
  | finite s _, infinite t => finite (s != t) 0
  | finite s a, finite t b => if b = 0 then nan else ofRatio (s != t) (a * unitsPerOne) b

/-- The exact remainder, with the sign of the dividend. An infinite dividend has none. -/
def rem? : Double → Double → Option Double
  | nan, _ | _, nan => some nan
  | infinite _, _ => none
  | finite s a, infinite _ => some (finite s a)
  | finite s a, finite _ b => if b = 0 then none else some (finite s (a % b))

/-- Nothing for an integer that rounds beyond the largest number. -/
def ofInt? (n : Int) : Option Double :=
  let x := ofRatio (n < 0) (n.natAbs * unitsPerOne) 1
  if x.isFinite then some x else none

def toInt? : Double → Option Int
  | finite s units => if units % unitsPerOne = 0 then some (signedUnits s (units / unitsPerOne)) else none
  | _ => none

end Double

end Rulebook
