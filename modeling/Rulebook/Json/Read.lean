import Rulebook.Json
import Rulebook.Reading
import Rulebook.Text.Hex
import Rulebook.Token.Literal

set_option autoImplicit false

/-!
Reading JSON text. Beside the standard documents the three number words `NaN`, `Infinity` and
`-Infinity` are accepted. Texts may not hold bare control characters. Two escaped halves of a surrogate
pair are one character; a bare surrogate and an escaped one are not joined. Of equal members of an object
the last value counts, at the place of the first. An integer of too many digits ends the reading.
-/

namespace Rulebook.Json

/-- Why a text is not read as a document; what is met first counts. -/
inductive ReadFault where
  | malformed
  | digits
  deriving DecidableEq, Repr

abbrev Result (α : Type) (bound : Nat) := Except ReadFault (Reading CodePoint α bound)

/-- Something that has to be there. -/
def require {α : Type} : Option α → Except ReadFault α
  | some a => .ok a
  | none => .error .malformed

def isSpace (p : CodePoint) : Bool := p.isA fun c => c == ' ' || c == '\t' || c == '\n' || c == '\r'

def skip (s : Text) : Text := s.dropWhile isSpace

theorem length_skip_le (s : Text) : (skip s).length ≤ s.length :=
  (List.dropWhile_sublist isSpace).length_le

def hexUnit? (a b c d : Char) : Option Nat := do
  return (((← Text.hexValue? a) * 16 + (← Text.hexValue? b)) * 16 + (← Text.hexValue? c)) * 16 +
    (← Text.hexValue? d)

def escape? : Char → Option Char
  | '"' => some '"'
  | '\\' => some '\\'
  | '/' => some '/'
  | 'b' => some '\x08'
  | 'f' => some '\x0c'
  | 'n' => some '\n'
  | 'r' => some '\r'
  | 't' => some '\t'
  | _ => none

/-- The second half of a surrogate pair, written as an escape. -/
def lowHalf? : Text → Option Nat
  | .char '\\' :: .char 'u' :: .char a :: .char b :: .char c :: .char d :: _ =>
    (hexUnit? a b c d).filter CodePoint.isLowHalf
  | _ => none

/-- The code point of an escaped unit, and how much of the text after it belongs to the code point. -/
def unitPoint (n : Nat) (rest : Text) : CodePoint × Nat :=
  match if CodePoint.isHighHalf n then lowHalf? rest else none with
  | some low => (.ofPair n low, 6)
  | none => (.ofNat n, 0)

/-- The text after an opening quote. -/
def readText (s : Text) : Result Text s.length :=
  match s with
  | [] => .error .malformed
  | .char '"' :: rest => .ok ⟨[], rest, by simp⟩
  | .char '\\' :: .char 'u' :: .char a :: .char b :: .char c :: .char d :: rest => do
    let n ← require (hexUnit? a b c d)
    let r ← readText (rest.drop (unitPoint n rest).2)
    return (r.map ((unitPoint n rest).1 :: ·)).weaken (by simp; omega)
  | .char '\\' :: .char c :: rest => do
    let d ← require (escape? c)
    let r ← readText rest
    return (r.map (.char d :: ·)).weaken (by simp; omega)
  | p :: rest =>
    if p = .char '\\' ∨ p.number < 0x20 then .error .malformed
    else do
      let r ← readText rest
      return (r.map (p :: ·)).weaken (by simp)
termination_by s.length

/-- The digits before the point: a zero that starts a number is followed by no other digit. -/
def wholeDigits : List Char → List Char
  | '0' :: _ => ['0']
  | cs => cs.takeWhile Char.isDigit

def scanNumber (cs : List Char) : NumberLiteral :=
  let whole := wholeDigits cs
  let rest := cs.drop whole.length
  let fraction := NumberLiteral.scanFraction rest
  ⟨whole, fraction, NumberLiteral.scanExponent (rest.drop fraction.length)⟩

def numberValue (negative : Bool) (l : NumberLiteral) : Number :=
  if l.isWhole then
    let n : Int := NumberLiteral.digitsValue l.whole
    .int (if negative then -n else n)
  else .float (Double.ofDecimal negative l.decimal)

/-- What a number can consist of. -/
def isNumeric (c : Char) : Bool := c.isDigit || c == '.' || c == 'e' || c == 'E' || c == '+' || c == '-'

/-- The characters at the start of a text that a number can consist of. -/
def numericStart : Text → List Char
  | .char c :: s => if isNumeric c then c :: numericStart s else []
  | _ => []

def readNumber (p : CodePoint) (rest : Text) : Result Json (rest.length + 1) :=
  let negative := p.isA (· == '-')
  let l := scanNumber ((numericStart (p :: rest)).drop negative.toNat)
  if l.whole.isEmpty then .error .malformed
  else if l.isLong then .error .digits
  else
    .ok ⟨.number (numberValue negative l), rest.drop (negative.toNat + l.text.length - 1),
      by rw [List.length_drop]; omega⟩

/-- Documents that are single words. -/
def words : List (String × Json) :=
  [("null", .null), ("true", .bool true), ("false", .bool false), ("NaN", .number (.float .nan)),
    ("Infinity", .number (.float (.infinite false))), ("-Infinity", .number (.float (.infinite true)))]

/-- The word at the start of a text. -/
def word? (s : Text) : Option (String × Json) :=
  words.find? fun w => (Text.ofString w.1).isPrefixOf s

mutual

def readValue (s : Text) : Result Json s.length :=
  match s with
  | .char '"' :: rest => do
    let r ← readText rest
    return (r.map .str).weaken (by simp)
  | .char '[' :: rest =>
    have := length_skip_le rest
    match h : skip rest with
    | .char ']' :: rest => .ok ⟨.arr [], rest, by simp [h] at this ⊢; omega⟩
    | p :: rest' => do
      have : rest'.length < rest.length := by rw [h] at this; exact this
      let r ← readItems (p :: rest')
      return (r.map .arr).weaken (by simp; omega)
    | [] => .error .malformed
  | .char '\x7b' :: rest =>
    have := length_skip_le rest
    match h : skip rest with
    | .char '\x7d' :: rest => .ok ⟨.obj [], rest, by simp [h] at this ⊢; omega⟩
    | p :: rest' => do
      have : rest'.length < rest.length := by rw [h] at this; exact this
      let r ← readMembers [] (p :: rest')
      return (r.map .obj).weaken (by simp; omega)
    | [] => .error .malformed
  | p :: rest =>
    match word? (p :: rest) with
    | some (w, v) => .ok ⟨v, rest.drop (w.length - 1), by rw [List.length_drop, List.length_cons]; omega⟩
    | none => readNumber p rest
  | [] => .error .malformed
termination_by 2 * s.length

/-- The items of a list up to its end; at least one. -/
def readItems (s : Text) : Result (List Json) s.length := do
  let ⟨v, rest, h⟩ ← readValue s
  have := length_skip_le rest
  match hr : skip rest with
  | .char ']' :: rest' => return ⟨[v], rest', by simp [hr] at this; omega⟩
  | .char ',' :: rest' =>
    have := length_skip_le rest'
    let r ← readItems (skip rest')
    return (r.map (v :: ·)).weaken (by simp [hr] at *; omega)
  | _ => .error .malformed
termination_by 2 * s.length + 1
decreasing_by all_goals simp_all <;> omega

/-- The members of an object up to its end; at least one. -/
def readMembers (before : List (Text × Json)) (s : Text) :
    Result (List (Text × Json)) s.length :=
  match s with
  | .char '"' :: rest => do
    let ⟨key, rest₁, h₁⟩ ← readText rest
    have := length_skip_le rest₁
    match hr₁ : skip rest₁ with
    | .char ':' :: rest₂ =>
      have := length_skip_le rest₂
      let ⟨v, rest₃, h₃⟩ ← readValue (skip rest₂)
      let members := Entries.put before key v
      have := length_skip_le rest₃
      match hr₃ : skip rest₃ with
      | .char '\x7d' :: rest₄ => return ⟨members, rest₄, by simp [hr₁, hr₃] at *; omega⟩
      | .char ',' :: rest₄ =>
        have := length_skip_le rest₄
        let r ← readMembers members (skip rest₄)
        return r.weaken (by simp [hr₁, hr₃] at *; omega)
      | _ => .error .malformed
    | _ => .error .malformed
  | _ => .error .malformed
termination_by 2 * s.length
decreasing_by all_goals (simp_all; omega)

end

/-- A whole text: one document and nothing else but space. -/
def read (s : Text) : Except ReadFault Json := do
  let ⟨v, rest, _⟩ ← readValue (skip s)
  if (skip rest).isEmpty then return v else throw .malformed

end Rulebook.Json
