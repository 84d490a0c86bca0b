import Rulebook.Directory
import Rulebook.Json.Display
import Rulebook.Json.Read
import Rulebook.Value.Json

set_option autoImplicit false

/-!
The files of a job: a ruleset file with a name and pairs of rule text and output variable, and a facts
file with an object.
-/

namespace Rulebook.CommandLine

inductive SourceError where
  | file (fault : FileFault)
  | unread (fault : Json.ReadFault)
  | notRuleset (path : String)
  | rulesNotList (path : String)
  | incompleteRule (path : String) (position : Nat)
  | factsNotObject (path : String)
  deriving DecidableEq, Repr

/-- What the program says as it ends; nothing for faults that lie below the form of the files. -/
def SourceError.message? : SourceError → Option String
  | .file _ | .unread _ => none
  | .notRuleset path => some (path ++ ": expected a JSON object with 'name' and 'rules'.")
  | .rulesNotList path => some (path ++ ": 'rules' must be a list.")
  | .incompleteRule path i =>
    some (path ++ ": rule #" ++ toString i ++ " needs 'rule' and 'output_variable'.")
  | .factsNotObject path => some (path ++ ": facts must be a JSON object.")

def readDocument (d : Directory) (path : String) : Except SourceError Json :=
  match d.read (Path.normal path) with
  | .error fault => .error (.file fault)
  | .ok text =>
    (Json.read text).mapError .unread

structure RulesetSource where
  name : String
  pairs : List (Text × Text)

namespace RulesetSource

def pairsOfJson (path : String) (position : Nat) : List Json → Except SourceError (List (Text × Text))
  | [] => .ok []
  | item :: items =>
    match item.get? "rule", item.get? "output_variable" with
    | some rule, some output => do
      return (rule.display, output.display) :: (← pairsOfJson path (position + 1) items)
    | _, _ => .error (.incompleteRule path position)

/-- A file without a name of its own is named by its path. -/
def ofJson (path : String) : Json → Except SourceError RulesetSource
  | .obj members => do
    let name := match Entries.get? members "name" with
      | some v => if v.isBlank then Path.stem path else v.display.shown
      | none => Path.stem path
    match Entries.get? members "rules" with
    | some (.arr items) => return ⟨name, ← pairsOfJson (Path.normal path) 0 items⟩
    | _ => .error (.rulesNotList (Path.normal path))
  | _ => .error (.notRuleset (Path.normal path))

def read (d : Directory) (path : String) : Except SourceError RulesetSource := do
  ofJson path (← readDocument d path)

end RulesetSource

def readFacts (d : Directory) (path : String) : Except SourceError (List (Key × Value)) := do
  match ← readDocument d path with
  | .obj members => return members.map fun (name, v) => (.text name, v.toValue)
  | _ => .error (.factsNotObject (Path.normal path))

end Rulebook.CommandLine
