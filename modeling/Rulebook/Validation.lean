import Rulebook.Json.Showable
import Rulebook.Text.Label

set_option autoImplicit false

/-!
Reading records from JSON. All faults of a record are reported, in the order of its fields, each with
the path to it; positions in lists are path steps as well. A fault is shown with the data that has it,
a missing field with the record that lacks it.
-/

namespace Rulebook

inductive Problem where
  | missing
  | textType
  | notWhole
  | tooShort
  | listType
  | mapType
  | boolType
  | boolReading
  | recordType
  | attributesType
  | malformed
  deriving DecidableEq, Repr

def Problem.label : Problem → String
  | .missing => "missing"
  | .textType => "string_type"
  | .notWhole => "string_unicode"
  | .tooShort => "string_too_short"
  | .listType => "list_type"
  | .mapType => "dict_type"
  | .boolType => "bool_type"
  | .boolReading => "bool_parsing"
  | .recordType => "model_type"
  | .attributesType => "model_attributes_type"
  | .malformed => "json_invalid"

structure FieldFault where
  path : List String
  problem : Problem
  /-- The data that has the fault can be shown. -/
  showable : Bool
  deriving DecidableEq, Repr

abbrev Checked (α : Type) := Except (List FieldFault) α

namespace Checked

variable {α β : Type}

def refuse (problem : Problem) (data : Json) : Checked α := .error [⟨[], problem, data.isShowable⟩]

/-- The faults are those of the part `step` of something larger. -/
def under (step : String) (c : Checked α) : Checked α :=
  c.mapError fun fs => fs.map fun f => { f with path := step :: f.path }

/-- Both parts, or the faults of both. -/
def both (a : Checked α) (b : Checked β) : Checked (α × β) :=
  match a, b with
  | .ok x, .ok y => .ok (x, y)
  | .ok _, .error fs => .error fs
  | .error fs, .ok _ => .error fs
  | .error fs, .error gs => .error (fs ++ gs)

/-- All items, or the faults of all of them, under their positions from `start` on. -/
def all (start : Nat) : List (Checked α) → Checked (List α)
  | [] => .ok []
  | c :: cs => ((c.under (toString start)).both (all (start + 1) cs)).map fun (x, xs) => x :: xs

/-- A member that an object has to have. -/
def required (members : List (Text × Json)) (name : String) (read : Json → Checked α) : Checked α :=
  (match Entries.get? members name with
    | some v => read v
    | none => refuse .missing (.obj members)).under name

/-- A member that an object can do without. -/
def optional (members : List (Text × Json)) (name : String) (fallback : α)
    (read : Json → Checked α) : Checked α :=
  (match Entries.get? members name with
    | some v => read v
    | none => .ok fallback).under name

def text : Json → Checked Text
  | .str s => .ok s
  | v => refuse .textType v

/-- A text that is only shown later on. In a document that is read from a string every text is a label. -/
def label (v : Json) : Checked Label := do
  let s ← text v
  if h : s.Unpaired then .ok ⟨s, h⟩ else refuse .notWhole v

/-- A string of one character at least. -/
def nonEmpty (s : Text) : Checked { s : String // s ≠ "" } :=
  match s.toString? with
  | none => refuse .notWhole (.str s)
  | some t => if h : t ≠ "" then .ok ⟨t, h⟩ else refuse .tooShort (.str s)

def nonEmptyText (v : Json) : Checked { s : String // s ≠ "" } := do nonEmpty (← text v)

end Checked

end Rulebook
