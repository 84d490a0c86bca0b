import Rulebook.Number.Decimal

set_option autoImplicit false

/-!
The text of a binary64 number: positional in a range of magnitudes, with at least one decimal, and
otherwise with a signed exponent. For display the range goes from 10^-4 up to 10^16, and exponents
have at least two digits.
-/

namespace Rulebook

structure NumberFormat where
  /-- The least decimal exponent that is written positionally. -/
  positionalFrom : Int
  /-- The first decimal exponent that is not. -/
  positionalBelow : Int
  exponentWidth : Nat
  infinity : String
  negativeInfinity : String
  notANumber : String

def NumberFormat.display : NumberFormat := ⟨-4, 16, 2, "inf", "-inf", "nan"⟩

def padLeft (width : Nat) (s : String) : String :=
  String.ofList (List.replicate (width - s.length) '0') ++ s

namespace Decimal

/-- The exponent of the first digit. -/
def leadingExponent (d : Decimal) : Int := d.exponent + digitCount d.coefficient - 1

def positional (d : Decimal) : String :=
  let digits := Nat.repr d.coefficient
  if 0 ≤ d.exponent then digits ++ String.ofList (List.replicate d.exponent.toNat '0') ++ ".0"
  else
    let places := (-d.exponent).toNat
    let padded := (padLeft (places + 1) digits).toList
    String.ofList (padded.take (padded.length - places)) ++ "." ++
      String.ofList (padded.drop (padded.length - places))

def scientific (exponentWidth : Nat) (d : Decimal) : String :=
  let e := d.leadingExponent
  let significand := match (Nat.repr d.coefficient).toList with
    | first :: second :: more => String.ofList (first :: '.' :: second :: more)
    | digits => String.ofList digits
  significand ++ "e" ++ (if e < 0 then "-" else "+") ++ padLeft exponentWidth (Nat.repr e.natAbs)

end Decimal

def NumberFormat.write (f : NumberFormat) : Double → String
  | .nan => f.notANumber
  | .infinite s => if s then f.negativeInfinity else f.infinity
  | .finite s units =>
    (if s then "-" else "") ++
      if units = 0 then "0.0"
      else
        let d := Double.shortest units
        if f.positionalFrom ≤ d.leadingExponent ∧ d.leadingExponent < f.positionalBelow then
          d.positional
        else d.scientific f.exponentWidth

def Double.toText (x : Double) : String := NumberFormat.display.write x

end Rulebook
