import Rulebook.Value.Path
import Rulebook.Entries

set_option autoImplicit false

/-!
The context of an evaluation: the facts, and the outputs derived so far. An output hides the whole
fact of its name, also when it is null; the two are never merged.
-/

namespace Rulebook

/-- Values under names. -/
abbrev Bindings := Entries String Value

/-- The named entries of a map. An entry under any other key cannot be looked up, and no name has a
surrogate. -/
def Bindings.ofEntries (es : List (Key × Value)) : Bindings :=
  es.filterMap fun
    | (.text name, v) => name.toString?.map (·, v)
    | _ => none

structure Context where
  facts : Bindings
  derived : Bindings

namespace Context

def find? (c : Context) (name : String) : Option Value :=
  match Entries.get? c.derived name with
  | some v => some v
  | none => Entries.get? c.facts name

def has (c : Context) (name : String) : Bool := (c.find? name).isSome

/-- A missing name is null. -/
def root (c : Context) (name : String) : Value := (c.find? name).getD .null

def setOutput (c : Context) (name : String) (v : Value) : Context :=
  { c with derived := Entries.put c.derived name v }

theorem root_setOutput (c : Context) (name other : String) (v : Value) :
    (c.setOutput name v).root other = if name = other then v else c.root other := by
  by_cases h : name = other <;> simp [root, find?, setOutput, Entries.get?_put, h]

end Context

end Rulebook
