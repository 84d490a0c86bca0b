import Rulebook.Number
import Rulebook.Text.Numeral

set_option autoImplicit false

/-!
Reading integers: a sign, then decimal digits of any script, with single underscores between digits. There
may be `mostDigits` digits.
-/

namespace Rulebook.Text

/-- The digits so far give `n`; a digit has to come next if the last character was an underscore. -/
def readDigits (n : Nat) (afterDigit : Bool) : List Char → Option Nat
  | [] => if afterDigit then some n else none
  | '_' :: rest => if afterDigit then readDigits n false rest else none
  | c :: rest =>
    match decimalValue? c with
    | some d => readDigits (10 * n + d) true rest
    | none => none

/-- Signs and underscores are not counted. -/
def digitCount (cs : List Char) : Nat := cs.countP fun c => (decimalValue? c).isSome

def readInt? (cs : List Char) : Option Int :=
  if mostDigits < digitCount cs then none
  else
    match cs with
    | '-' :: rest => (readDigits 0 false rest).map fun n => -(n : Int)
    | '+' :: rest => (readDigits 0 false rest).map fun n => (n : Int)
    | cs => (readDigits 0 false cs).map fun n => (n : Int)

end Rulebook.Text
