import Rulebook.Entries
import Rulebook.Eval.Function

set_option autoImplicit false

/-!
Registries: functions under names that are all distinct, aliases included. A list of functions makes a
registry unless a name is declared twice. The table of a registry is what a list of functions is filed in
label by label; it shows the same names and functions.
-/

namespace Rulebook

/-- The first element that occurred before, where `seen` occurred already. -/
def firstRepeated (seen : List String) : List String → Option String
  | [] => none
  | s :: ss => if s ∈ seen then some s else firstRepeated (s :: seen) ss

theorem firstRepeated_eq_none_iff (seen ss : List String) :
    firstRepeated seen ss = none ↔ ss.Nodup ∧ ∀ s ∈ ss, s ∉ seen := by
  induction ss generalizing seen with
  | nil => simp [firstRepeated]
  | cons s ss ih =>
    rw [firstRepeated]
    split
    · simp_all
    · rw [ih]
      simp only [List.nodup_cons, List.mem_cons]
      grind

structure Registry where
  functions : List Function
  distinct : (functions.flatMap Function.labels).Nodup

namespace Registry

/-- The registry of a list of functions, or the first name that repeats an earlier one. -/
def ofList (fs : List Function) : Except String Registry :=
  match h : firstRepeated [] (fs.flatMap Function.labels) with
  | none => .ok ⟨fs, ((firstRepeated_eq_none_iff _ _).1 h).1⟩
  | some name => .error name

def find? (r : Registry) (name : String) : Option Function :=
  r.functions.find? fun f => f.labels.contains name

def contains (r : Registry) (name : String) : Bool := (r.find? name).isSome

/-- All names and aliases, sorted. -/
def names (r : Registry) : List String :=
  (r.functions.flatMap Function.labels).mergeSort fun a b => decide (a ≤ b)

/-- The functions, sorted by their own names. -/
def sorted (r : Registry) : List Function :=
  r.functions.mergeSort fun f g => decide (f.name ≤ g.name)

def builtin : Registry := ⟨Function.builtin, by decide⟩

/-- Functions under all their labels, in the order of filing. -/
abbrev Table := Entries String Function

namespace Table

/-- Files a function under some labels, or gives the first label that is taken. -/
def file (t : Table) (f : Function) : List String → Except String Table
  | [] => .ok t
  | label :: labels =>
    if (Entries.get? t label).isSome then .error label
    else file (Entries.put t label f) f labels

def fileAll (t : Table) : List Function → Except String Table
  | [] => .ok t
  | f :: fs => do fileAll (← t.file f f.labels) fs

def ofList (fs : List Function) : Except String Table := fileAll [] fs

def names (t : Table) : List String := (Entries.keys t).mergeSort fun a b => decide (a ≤ b)

/-- The functions under their own names; of two with one name the later one. -/
def byName (t : Table) : Table := t.foldl (fun seen e => Entries.put seen e.2.name e.2) []

/-- The functions, sorted by their own names. -/
def functions (t : Table) : List Function := t.byName.names.filterMap (Entries.get? t.byName)

end Table

end Registry

end Rulebook
