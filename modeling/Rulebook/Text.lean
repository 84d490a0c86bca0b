set_option autoImplicit false

/-!
Texts of data: sequences of code points. Nearly all code points are characters. Half of a surrogate pair
is none, but escapes and encodings can hold one that stands alone. Every string is a text; the texts of
expressions, names and messages are strings.
-/

namespace Rulebook

inductive CodePoint where
  | char (c : Char)
  /-- The code point `0xD800 + n`. -/
  | surrogate (n : Fin 0x800)
  deriving DecidableEq, Repr

abbrev Text := List CodePoint

namespace CodePoint

def number : CodePoint → Nat
  | char c => c.toNat
  | surrogate n => 0xD800 + n

def ofNat (n : Nat) : CodePoint :=
  if h : 0xD800 ≤ n ∧ n < 0xE000 then surrogate ⟨n - 0xD800, by omega⟩ else char (Char.ofNat n)

/-- A character that passes a test. -/
def isA (test : Char → Bool) : CodePoint → Bool
  | char c => test c
  | surrogate _ => false

def isHighHalf (n : Nat) : Bool := 0xD800 ≤ n && n < 0xDC00

def isLowHalf (n : Nat) : Bool := 0xDC00 ≤ n && n < 0xE000

/-- The character that a surrogate pair stands for. -/
def ofPair (high low : Nat) : CodePoint :=
  char (Char.ofNat (0x10000 + (high - 0xD800) * 0x400 + (low - 0xDC00)))

end CodePoint

namespace Text

def ofChars (cs : List Char) : Text := cs.map .char

def ofString (s : String) : Text := ofChars s.toList

instance : Coe String Text := ⟨ofString⟩

/-- The characters of a text that has no surrogates. -/
def chars? : Text → Option (List Char)
  | [] => some []
  | .char c :: s => (chars? s).map (c :: ·)
  | .surrogate _ :: _ => none

def toString? (s : Text) : Option String := (chars? s).map String.ofList

/-- No surrogate stands in the text. -/
def isWhole (s : Text) : Bool := (chars? s).isSome

/-- The text with the replacement character in the place of surrogates. -/
def shown (s : Text) : String :=
  String.ofList <| s.map fun
    | .char c => c
    | .surrogate _ => '\uFFFD'

/-- The order by code points; a text comes after all its beginnings. -/
def precedes : Text → Text → Bool
  | _, [] => false
  | [], _ :: _ => true
  | p :: s, q :: t => p.number < q.number || (p == q && precedes s t)

/-- Changes every run of characters between surrogates; `run` holds the characters of a run that were
passed, the nearest first. -/
def mapRunsFrom (f : List Char → List Char) (run : List Char) : Text → Text
  | [] => ofChars (f run.reverse)
  | .char c :: s => mapRunsFrom f (c :: run) s
  | .surrogate n :: s => ofChars (f run.reverse) ++ .surrogate n :: mapRunsFrom f [] s

def mapRuns (f : List Char → List Char) (s : Text) : Text := mapRunsFrom f [] s

@[simp] theorem chars?_ofChars (cs : List Char) : chars? (ofChars cs) = some cs := by
  induction cs with
  | nil => rfl
  | cons c cs ih => simp_all [ofChars, chars?]

@[simp] theorem toString?_ofString (s : String) : toString? (ofString s) = some s := by
  simp [toString?, ofString]

@[simp] theorem ofString_ofList (cs : List Char) : ofString (String.ofList cs) = ofChars cs := by
  rw [ofString, String.toList_ofList]

@[simp] theorem ofString_append (s t : String) : ofString (s ++ t) = ofString s ++ ofString t := by
  simp [ofString, ofChars]

theorem ofString_injective {s t : String} (h : ofString s = ofString t) : s = t := by
  simpa using congrArg toString? h

theorem eq_ofChars {s : Text} {cs : List Char} (h : chars? s = some cs) : s = ofChars cs := by
  induction s generalizing cs with
  | nil =>
    cases h
    rfl
  | cons p s ih =>
    cases p with
    | surrogate n => cases h
    | char c =>
      obtain ⟨ds, hds, rfl⟩ := Option.map_eq_some_iff.mp h
      rw [ih hds]
      rfl

theorem eq_ofString {s : Text} {name : String} (h : toString? s = some name) : s = ofString name := by
  obtain ⟨cs, hcs, rfl⟩ := Option.map_eq_some_iff.mp h
  rw [eq_ofChars hcs, ofString, String.toList_ofList]

@[simp] theorem shown_ofString (s : String) : shown (ofString s) = s := by
  simp [shown, ofString, ofChars, Function.comp_def]

end Text

end Rulebook
