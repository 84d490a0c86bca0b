import Rulebook.Json.Read
import Rulebook.Json.Write
import Rulebook.Rule

set_option autoImplicit false

/-!
Rulesets by name, and the document they are kept in. A rule that has no identifier in the document
gets a new one whenever the document is read.
-/

namespace Rulebook

abbrev Rulesets := Entries Text (List Rule)

/-- Why a document holds no rulesets. The first fault is the one reported. -/
inductive DocumentError where
  | unread (fault : Json.ReadFault)
  | invalidRule (faults : List FieldFault)
  | notList
  deriving DecidableEq, Repr

namespace Rulesets

def toJson (rs : Rulesets) (clock : String) : Json :=
  .obj [("rulesets", .obj (rs.map fun (name, rules) => (name, .arr (rules.map Rule.toJson)))),
    ("updated_at", .str clock)]

def toText (rs : Rulesets) (clock : String) : String := (rs.toJson clock).indented

/-- The items of a list, the keys of an object or the characters of a text; only items of a list can
be rules. -/
def items? : Json → Option (List Json)
  | .arr items => some items
  | .obj members => some (members.map fun (name, _) => .str name)
  | .str s => some (s.map fun p => .str [p])
  | _ => none

def readRules (ids : Ids) (items : List Json) : Except DocumentError (List Rule) :=
  items.zipIdx.mapM fun (v, i) => (Rule.ofJson (ids.nth i) v).mapError .invalidRule

def readEntries (ids : Ids) : List (Text × Json) → Except DocumentError (Rulesets × Ids)
  | [] => .ok ([], ids)
  | (name, v) :: members =>
    match items? v with
    | none => .error .notList
    | some items => do
      let rules ← readRules ids items
      let (rest, ids) ← readEntries (ids.advance items.length) members
      return ((name, rules) :: rest, ids)

/-- A document of another shape holds no rulesets. -/
def ofJson (ids : Ids) (document : Json) : Except DocumentError (Rulesets × Ids) :=
  match document.get? "rulesets" with
  | some (.obj members) => readEntries ids members
  | _ => .ok ([], ids)

def ofText (ids : Ids) (text : String) : Except DocumentError (Rulesets × Ids) :=
  match Json.read text with
  | .ok document => ofJson ids document
  | .error fault => .error (.unread fault)

end Rulesets

end Rulebook
