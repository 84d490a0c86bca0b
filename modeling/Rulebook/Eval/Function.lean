import Rulebook.Eval.Error
import Rulebook.Text.Blank
import Rulebook.Text.Case
import Rulebook.Text.Search

set_option autoImplicit false

/-!
The built-in functions. They work on texts; null is let through as the descriptions say, and anything
else in place of a text is a mismatch. The number of arguments is checked before the function runs.
-/

namespace Rulebook

structure Function where
  name : String
  arity : Arity
  description : String
  aliases : List String
  run : List Value → Outcome Value

namespace Function

/-- All names under which a function is called. -/
def labels (f : Function) : List String := f.name :: f.aliases

/-- A wrong number of arguments is reported under the function's own name. -/
def call (f : Function) (args : List Value) : Outcome Value :=
  if f.arity.admits args.length then f.run args
  else .fail (.arity f.name f.arity.text args.length)

/-- An argument that has to be a text or null. -/
def textArg (function : String) (position : Nat) : Value → Outcome (Option Text)
  | .null => .ok none
  | .text s => .ok (some s)
  | v => do .mismatch (.functionText function position (← v.kindOf))

/-- An argument that has to be a whole number, perhaps with a fraction of zero. -/
def wholeArg (function : String) (position : Nat) (v : Value) : Outcome Int := do
  let kind ← v.kindOf
  match v with
  | .number n =>
    match n.toInt? with
    | some i => .ok i
    | none => .mismatch (.wholeNumber function position kind)
  | _ => .mismatch (.wholeNumber function position kind)

def nth (args : List Value) (i : Nat) : Value := args.getD i .null

def ofText (s : Option Text) : Value :=
  match s with
  | some s => .text s
  | none => .null

/-- A function from text to text that keeps null. -/
def textFunction (name : String) (f : Text → Text) (args : List Value) : Outcome Value := do
  let s ← textArg name 1 (nth args 0)
  return ofText (s.map f)

/-- A test of two texts that is false on null. -/
def textTest (name : String) (test : Text → Text → Bool) (args : List Value) : Outcome Value := do
  match ← textArg name 1 (nth args 0), ← textArg name 2 (nth args 1) with
  | some s, some t => return .bool (test s t)
  | _, _ => return .bool false

def sliceText (s : Text) (start : Int) (stop : Option Int) : Text :=
  Text.slice s start (stop.getD s.length)

def substring (args : List Value) : Outcome Value := do
  let s ← textArg "SUBSTRING" 1 (nth args 0)
  let start ← wholeArg "SUBSTRING" 2 (nth args 1)
  let stop ← if 2 < args.length then some <$> wholeArg "SUBSTRING" 3 (nth args 2) else pure none
  return ofText (s.map (sliceText · start stop))

/-- Joins texts from a position on; null counts as empty. -/
def concatFrom (position : Nat) : List Value → Outcome Text
  | [] => .ok []
  | v :: vs => do
    let s ← textArg "CONCAT" position v
    return s.getD [] ++ (← concatFrom (position + 1) vs)

def length (args : List Value) : Outcome Value := do
  let s ← textArg "LENGTH" 1 (nth args 0)
  return .int (s.elim 0 fun s => s.length)

def builtin : List Function :=
  [⟨"UPPERCASE", .exactly 1, "Uppercase of s; null stays null.", ["STRING_UPPERCASE"],
      textFunction "UPPERCASE" Text.toUpper⟩,
    ⟨"LOWERCASE", .exactly 1, "Lowercase of s; null stays null.", ["STRING_LOWERCASE"],
      textFunction "LOWERCASE" Text.toLower⟩,
    ⟨"SUBSTRING", ⟨2, some 3⟩,
      "s[start:end]; out-of-range bounds return s unchanged; null stays null.", ["STRING_SUBSTRING"],
      substring⟩,
    ⟨"CONCAT", ⟨0, none⟩, "Concatenation of all arguments; null counts as empty.", ["STRING_CONCAT"],
      fun args => .text <$> concatFrom 1 args⟩,
    ⟨"LENGTH", .exactly 1, "Character count of s; null is 0.", [], length⟩,
    ⟨"CONTAINS", .exactly 2, "Substring test; null is false.", [],
      textTest "CONTAINS" fun s t => Text.occursIn t s⟩,
    ⟨"STARTS_WITH", .exactly 2, "Prefix test; null is false.", [],
      textTest "STARTS_WITH" fun s t => t.isPrefixOf s⟩,
    ⟨"ENDS_WITH", .exactly 2, "Suffix test; null is false.", [],
      textTest "ENDS_WITH" fun s t => t.isSuffixOf s⟩,
    ⟨"TRIM", .exactly 1, "Strips leading/trailing whitespace; null stays null.", [],
      textFunction "TRIM" Text.trimmed⟩]

end Function

end Rulebook
