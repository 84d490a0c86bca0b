import Rulebook.Directory
import Rulebook.Store.Document

set_option autoImplicit false

/-!
Stores of rulesets: in memory, or in one document that is read at every operation and replaced at
every change. An operation that fails changes nothing that is kept.
-/

namespace Rulebook

inductive Backing where
  | memory (rulesets : Rulesets)
  | document (path : String)

/-- A store with the directory around it and the identifiers that are left. -/
structure Store where
  backing : Backing
  directory : Directory
  ids : Ids

inductive StoreError where
  | taken (name : String)
  | document (e : DocumentError)
  | file (fault : FileFault)
  deriving DecidableEq, Repr

def StoreError.takenMessage (name : String) : String := "Ruleset already exists: " ++ name

namespace Store

/-- The store at a path; in memory if the path is empty. -/
def atPath (path : String) (directory : Directory) (ids : Ids) : Store :=
  ⟨if path = "" then .memory [] else .document path, directory, ids⟩

/-- A store at the same place, as another program finds it. -/
def reopen (s : Store) : Store :=
  match s.backing with
  | .memory _ => { s with backing := .memory [] }
  | .document _ => s

/-- The rulesets that are kept. A document that cannot be found holds none. -/
def load (s : Store) : Except StoreError (Rulesets × Ids) :=
  match s.backing with
  | .memory rs => .ok (rs, s.ids)
  | .document path =>
    match s.directory.read path with
    | .ok text => (Rulesets.ofText s.ids text).mapError .document
    | .error .folder => .error (.file .folder)
    | .error _ => .ok ([], s.ids)

def save (s : Store) (rs : Rulesets) : Except StoreError Unit × Store :=
  match s.backing with
  | .memory _ => (.ok (), { s with backing := .memory rs })
  | .document path =>
    let (result, directory) := s.directory.replace path (rs.toText s.directory.clock)
    (result.mapError .file, { s with directory })

/-- An answer from the rulesets that are kept. -/
def query {α : Type} (s : Store) (answer : Rulesets → α) : Except StoreError α × Store :=
  match s.load with
  | .error e => (.error e, s)
  | .ok (rs, ids) => (.ok (answer rs), { s with ids })

def names (s : Store) : Except StoreError (List Text) × Store := s.query Entries.keys

/-- The rules of a ruleset; none if there is no such ruleset. -/
def get (s : Store) (name : String) : Except StoreError (List Rule) × Store :=
  s.query fun rs => (Entries.get? rs name).getD []

def create (s : Store) (name : String) (rules : List Rule) : Except StoreError (List Rule) × Store :=
  match s.load with
  | .error e => (.error e, s)
  | .ok (rs, ids) =>
    if (Entries.get? rs name).isSome then (.error (.taken name), s)
    else
      let (result, s) := { s with ids }.save (Entries.put rs name rules)
      (result.map fun _ => rules, s)

/-- Adds a rule at the end of a ruleset, which is made at the end if there is none. -/
def append (s : Store) (name : String) (rule : Rule) : Except StoreError Rule × Store :=
  match s.load with
  | .error e => (.error e, s)
  | .ok (rs, ids) =>
    let rules := (Entries.get? rs name).getD []
    let (result, s) := { s with ids }.save (Entries.put rs name (rules ++ [rule]))
    (result.map fun _ => rule, s)

end Store

end Rulebook
