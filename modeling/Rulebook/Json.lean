import Rulebook.Number
import Rulebook.Entries
import Rulebook.Text

set_option autoImplicit false

/-!
JSON documents. Objects keep the order of their members; numbers keep the difference between
integers and binary64 numbers.
-/

namespace Rulebook

inductive Json where
  | null
  | bool (b : Bool)
  | number (n : Number)
  | str (s : Text)
  | arr (items : List Json)
  | obj (members : List (Text × Json))
  deriving Inhabited

namespace Json

def int (n : Int) : Json := .number (.int n)

def nat (n : Nat) : Json := .number (.int n)

def strs (ss : List String) : Json := .arr (ss.map fun (s : String) => .str s)

/-- The member of an object; nothing for other documents. -/
def get? : Json → String → Option Json
  | obj members, key => Entries.get? members key
  | _, _ => none

end Json

end Rulebook
