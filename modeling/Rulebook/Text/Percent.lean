import Rulebook.Text.Hex

set_option autoImplicit false

/-!
Percent-decoding. Escaped bytes are read as UTF-8, and the replacement character stands for bytes that
are none: one for each start of a sequence that breaks off, and one for each byte that starts nothing.
A percent sign without two hexadecimal digits stands for itself.
-/

namespace Rulebook.Text

/-- A sequence of bytes that is not complete: its value up to here, how many bytes are missing, and
the bounds of the next one. -/
structure OpenSequence where
  value : Nat
  missing : Nat
  least : Nat
  most : Nat

/-- What a text decodes to after one more byte. -/
abbrev ByteStep := List Char × Option OpenSequence

def openingByte (b : Nat) : ByteStep :=
  if b < 0x80 then ([Char.ofNat b], none)
  else if b < 0xC2 then (['\uFFFD'], none)
  else if b < 0xE0 then ([], some ⟨b - 0xC0, 1, 0x80, 0xBF⟩)
  else if b < 0xF0 then
    ([], some ⟨b - 0xE0, 2, if b = 0xE0 then 0xA0 else 0x80, if b = 0xED then 0x9F else 0xBF⟩)
  else if b < 0xF5 then
    ([], some ⟨b - 0xF0, 3, if b = 0xF0 then 0x90 else 0x80, if b = 0xF4 then 0x8F else 0xBF⟩)
  else (['\uFFFD'], none)

def closing (s : Option OpenSequence) : List Char :=
  match s with
  | none => []
  | some _ => ['\uFFFD']

def nextByte (s : Option OpenSequence) (b : Nat) : ByteStep :=
  match s with
  | none => openingByte b
  | some q =>
    if q.least ≤ b ∧ b ≤ q.most then
      let value := q.value * 64 + (b - 0x80)
      if q.missing = 1 then ([Char.ofNat value], none)
      else ([], some ⟨value, q.missing - 1, 0x80, 0xBF⟩)
    else
      let (out, next) := openingByte b
      ('\uFFFD' :: out, next)

def hexByte? (a b : Char) : Option Nat := do return (← hexValue? a) * 16 + (← hexValue? b)

def percentDecodeFrom (s : Option OpenSequence) : List Char → List Char
  | '%' :: a :: b :: rest =>
    match hexByte? a b with
    | some byte =>
      let (out, s) := nextByte s byte
      out ++ percentDecodeFrom s rest
    | none => closing s ++ '%' :: percentDecodeFrom none (a :: b :: rest)
  | c :: rest => closing s ++ c :: percentDecodeFrom none rest
  | [] => closing s

def percentDecode (cs : List Char) : List Char := percentDecodeFrom none cs

end Rulebook.Text
