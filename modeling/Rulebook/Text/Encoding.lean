import Rulebook.Text

set_option autoImplicit false

/-!
Encodings of texts that do not name their encoding. It shows in where the first zero bytes are: texts
start with two characters below U+0100 as a rule, whose other bytes are zero. Bytes that are no text
in the encoding they show are refused, but surrogates that stand alone are let through.
-/

namespace Rulebook.Text

inductive ByteOrder where
  | highFirst
  | lowFirst
  deriving DecidableEq, Repr

inductive Encoding where
  | utf8
  | utf16 (order : ByteOrder)
  | utf32 (order : ByteOrder)
  deriving DecidableEq, Repr

namespace Encoding

/-- The encoding that the first four bytes show, or both bytes of a text that has only two. -/
def detect : List Nat → Encoding
  | a :: b :: c :: d :: _ =>
    if a = 0 then if b = 0 then utf32 .highFirst else utf16 .highFirst
    else if b = 0 then if c = 0 ∧ d = 0 then utf32 .lowFirst else utf16 .lowFirst
    else utf8
  | [a, b] => if a = 0 then utf16 .highFirst else if b = 0 then utf16 .lowFirst else utf8
  | _ => utf8

def number (order : ByteOrder) (bytes : List Nat) : Nat :=
  (match order with
    | .highFirst => bytes
    | .lowFirst => bytes.reverse).foldl (fun n b => n * 0x100 + b) 0

/-- The numbers of two bytes each; nothing if a byte is left over. -/
def doubleBytes (order : ByteOrder) : List Nat → Option (List Nat)
  | a :: b :: rest => (doubleBytes order rest).map (number order [a, b] :: ·)
  | [_] => none
  | [] => some []

/-- The numbers of four bytes each; nothing if bytes are left over. -/
def quadrupleBytes (order : ByteOrder) : List Nat → Option (List Nat)
  | a :: b :: c :: d :: rest => (quadrupleBytes order rest).map (number order [a, b, c, d] :: ·)
  | [] => some []
  | _ => none

/-- Joins the halves of surrogate pairs. -/
def ofUnits : List Nat → Text
  | [] => []
  | [n] => [.ofNat n]
  | high :: low :: rest =>
    if CodePoint.isHighHalf high && CodePoint.isLowHalf low then .ofPair high low :: ofUnits rest
    else .ofNat high :: ofUnits (low :: rest)

/-- Nothing if a number is beyond the last code point. -/
def ofNumbers (numbers : List Nat) : Option Text :=
  if numbers.all (· < 0x110000) then some (numbers.map .ofNat) else none

end Encoding

/-- The UTF-8 bytes of a text. -/
def utf8Bytes (s : String) : List Nat := (s.toList.flatMap String.utf8EncodeChar).map UInt8.toNat

/-- Reads a text anew whose UTF-8 bytes are in the encoding they show. A byte order mark is dropped
in UTF-8. -/
def reread (s : String) : Option Text :=
  let bytes := utf8Bytes s
  match Encoding.detect bytes with
  | .utf8 =>
    match s.toList with
    | '\uFEFF' :: cs => some (ofChars cs)
    | cs => some (ofChars cs)
  | .utf16 order => (Encoding.doubleBytes order bytes).map Encoding.ofUnits
  | .utf32 order => (Encoding.quadrupleBytes order bytes).bind Encoding.ofNumbers

end Rulebook.Text
