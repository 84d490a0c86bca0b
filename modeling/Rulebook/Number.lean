import Rulebook.Number.Text

set_option autoImplicit false

/-!
Numbers: unbounded integers and binary64 numbers. They are compared by exact value across the two
forms. Arithmetic stays with integers as long as both operands are integers; otherwise the integer
operand is rounded first, which fails beyond the largest binary64 number. Only the texts of integers are
bounded: one of more than `mostDigits` digits is neither read nor written.
-/

namespace Rulebook

inductive Number where
  | int (n : Int)
  | float (x : Double)
  deriving DecidableEq, Inhabited

/-- The most digits of an integer that is read or written. -/
def mostDigits : Nat := 4300

inductive ArithOp where
  | add | sub | mul | div | rem
  deriving DecidableEq, Repr

/-- Why an operation on two numbers has no result. -/
inductive ArithFault where
  | divisionByZero
  | overflow
  | domain
  deriving DecidableEq, Repr

namespace Number

/-- The place of a number in the order: an infinity's side, then the exact value in units. -/
def rank? : Number → Option (Int × Int)
  | int n => some (0, n * Double.unitsPerOne)
  | float .nan => none
  | float (.infinite s) => some (if s then -1 else 1, 0)
  | float (.finite s units) => some (0, Double.signedUnits s units)

def isNaN (a : Number) : Bool := a.rank?.isNone

def eq (a b : Number) : Bool :=
  match a.rank?, b.rank? with
  | some x, some y => x == y
  | _, _ => false

def lt (a b : Number) : Bool :=
  match a.rank?, b.rank? with
  | some x, some y => x.1 < y.1 || (x.1 == y.1 && x.2 < y.2)
  | _, _ => false

def le (a b : Number) : Bool := a.lt b || a.eq b

def neg : Number → Number
  | int n => int (-n)
  | float x => float x.neg

def isFinite : Number → Bool
  | int _ | float (.finite _ _) => true
  | _ => false

def isZero : Number → Bool
  | int n => n == 0
  | float x => x.isZero

/-- The integer that a number is, also when it is written with a fraction of zero. -/
def toInt? : Number → Option Int
  | int n => some n
  | float x => x.toInt?

def toDouble? : Number → Option Double
  | int n => Double.ofInt? n
  | float x => some x

/-- The number has a text. -/
def isWritable : Number → Bool
  | int n => Decimal.digitCount n.natAbs ≤ mostDigits
  | float _ => true

def toText : Number → String
  | int n => toString n
  | float x => x.toText

/-- The quotient of the magnitudes, with a minus if just one of the two is negative. -/
def intQuotient (a b : Int) : Int :=
  let q : Int := (a.natAbs / b.natAbs : Nat)
  if a < 0 ↔ b < 0 then q else -q

/-- Quotients of integers are truncated toward zero; the remainder has the sign of the dividend. -/
def intArith : ArithOp → Int → Int → Int
  | .add, a, b => a + b
  | .sub, a, b => a - b
  | .mul, a, b => a * b
  | .div, a, b => intQuotient a b
  | .rem, a, b => a - b * intQuotient a b

def floatArith : ArithOp → Double → Double → Option Double
  | .add, x, y => some (x.add y)
  | .sub, x, y => some (x.sub y)
  | .mul, x, y => some (x.mul y)
  | .div, x, y => some (x.div y)
  | .rem, x, y => x.rem? y

def ArithOp.divides : ArithOp → Bool
  | .div | .rem => true
  | _ => false

def arith (op : ArithOp) (a b : Number) : Except ArithFault Number :=
  if ArithOp.divides op && b.isZero then .error .divisionByZero
  else
    match a, b with
    | int m, int n => .ok (int (intArith op m n))
    | a, b =>
      match a.toDouble?, b.toDouble? with
      | some x, some y =>
        match floatArith op x y with
        | some z => .ok (float z)
        | none => .error .domain
      | _, _ => .error .overflow

theorem arith_int (op : ArithOp) (m n : Int) (h : n ≠ 0) :
    arith op (int m) (int n) = .ok (int (intArith op m n)) := by
  simp [arith, isZero, h]

end Number

end Rulebook
