import Rulebook.Text
import Rulebook.Text.CaseTable

set_option autoImplicit false

/-!
Upper and lower case of a text. One character may become several. A capital sigma becomes a final
sigma at the end of a cased word, looking past ignorable characters on both sides.
-/

namespace Rulebook.Text

def isCased (c : Char) : Bool := casedRanges.contains c.toNat

def isCaseIgnorable (c : Char) : Bool := caseIgnorableRanges.contains c.toNat

def mapCase (runs : List CaseRun) (sequences : List (Nat × List Char)) (c : Char) : List Char :=
  match sequences.lookup c.toNat with
  | some cs => cs
  | none => [((runs.findSome? (·.image? c.toNat)).map Char.ofNat).getD c]

def upperChar (c : Char) : List Char := mapCase upperRuns upperSequences c

def lowerChar (c : Char) : List Char := mapCase lowerRuns lowerSequences c

def upper (cs : List Char) : List Char := cs.flatMap upperChar

/-- The first character that is not ignorable is cased. -/
def meetsCased (cs : List Char) : Bool := (cs.dropWhile isCaseIgnorable).head?.any isCased

/-- `before` holds the characters already passed, the nearest first. -/
def lowerFrom (before : List Char) : List Char → List Char
  | [] => []
  | c :: rest =>
    (if c = 'Σ' then [if meetsCased before && !meetsCased rest then 'ς' else 'σ'] else lowerChar c) ++
      lowerFrom (c :: before) rest

def lower (cs : List Char) : List Char := lowerFrom [] cs

def toUpper (s : Text) : Text := mapRuns upper s

/-- Surrogates are neither cased nor ignorable, so a word ends where one stands. -/
def toLower (s : Text) : Text := mapRuns lower s

end Rulebook.Text
