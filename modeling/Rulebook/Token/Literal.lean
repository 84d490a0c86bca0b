import Rulebook.Token

set_option autoImplicit false

/-!
Number and text literals. A number is digits, perhaps a point with digits, perhaps an exponent; a
point or an `e` that no digit follows is not part of it. A text stands between two equal quotes and
has six escapes.
-/

namespace Rulebook

/-- The parts of a number as they are written; the last two may be empty. -/
structure NumberLiteral where
  whole : List Char
  fraction : List Char
  exponent : List Char
  deriving DecidableEq

namespace NumberLiteral

def text (l : NumberLiteral) : List Char := l.whole ++ l.fraction ++ l.exponent

def isWhole (l : NumberLiteral) : Bool := l.fraction.isEmpty && l.exponent.isEmpty

/-- An integer of more digits than are read. Zeros at the start count as well. -/
def isLong (l : NumberLiteral) : Bool := l.isWhole && mostDigits < l.whole.length

def scanFraction : List Char → List Char
  | '.' :: rest =>
    let digits := rest.takeWhile Char.isDigit
    if digits.isEmpty then [] else '.' :: digits
  | _ => []

def scanSign : List Char → List Char
  | '+' :: _ => ['+']
  | '-' :: _ => ['-']
  | _ => []

def scanExponent : List Char → List Char
  | [] => []
  | e :: rest =>
    let sign := scanSign rest
    let digits := (rest.drop sign.length).takeWhile Char.isDigit
    if (e = 'e' ∨ e = 'E') ∧ digits ≠ [] then e :: sign ++ digits else []

/-- The longest number at the start of a text. -/
def scan (cs : List Char) : NumberLiteral :=
  let whole := cs.takeWhile Char.isDigit
  let rest := cs.drop whole.length
  let fraction := scanFraction rest
  ⟨whole, fraction, scanExponent (rest.drop fraction.length)⟩

def digitsValue (cs : List Char) : Nat := cs.foldl (fun n c => 10 * n + (c.toNat - '0'.toNat)) 0

def exponentValue : List Char → Int
  | _ :: '-' :: digits => -(digitsValue digits : Int)
  | _ :: '+' :: digits => digitsValue digits
  | _ :: digits => digitsValue digits
  | [] => 0

def decimal (l : NumberLiteral) : Decimal :=
  let places := l.fraction.drop 1
  ⟨digitsValue (l.whole ++ places), exponentValue l.exponent - places.length⟩

end NumberLiteral

namespace TextLiteral

def unescape? : Char → Option Char
  | '"' => some '"'
  | '\x27' => some '\x27'
  | '\\' => some '\\'
  | 'n' => some '\n'
  | 't' => some '\t'
  | 'r' => some '\r'
  | _ => none

/-- Reads up to the closing quote. Gives the text and the number of characters read, the quote
included; `position` is where reading begins and `start` where the opening quote stands. -/
def scan (quote : Char) (start : Nat) : Nat → List Char → Except SyntaxFault (List Char × Nat)
  | _, [] | _, ['\\'] => .error ⟨start, .unterminatedText⟩
  | position, '\\' :: c :: rest =>
    match unescape? c with
    | none => .error ⟨position, .invalidEscape c⟩
    | some d => (scan quote start (position + 2) rest).map fun (s, n) => (d :: s, n + 2)
  | position, c :: rest =>
    if c = quote then .ok ([], 1)
    else (scan quote start (position + 1) rest).map fun (s, n) => (c :: s, n + 1)

end TextLiteral

end Rulebook
