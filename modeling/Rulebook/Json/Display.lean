import Rulebook.Json
import Rulebook.Text.Quoted

set_option autoImplicit false

/-!
The text that stands for a document where a text is wanted: texts as they are, everything else as a
literal, in which texts are quoted.
-/

namespace Rulebook.Json

mutual

def literal : Json → String
  | null => "None"
  | bool b => if b then "True" else "False"
  | number n => n.toText
  | str s => Text.quoted s
  | arr items => "[" ++ ", ".intercalate (literalItems items) ++ "]"
  | obj members => "\x7b" ++ ", ".intercalate (literalMembers members) ++ "\x7d"

def literalItems : List Json → List String
  | [] => []
  | v :: vs => v.literal :: literalItems vs

def literalMembers : List (Text × Json) → List String
  | [] => []
  | (k, v) :: ms => (Text.quoted k ++ ": " ++ v.literal) :: literalMembers ms

end

def display : Json → Text
  | str s => s
  | v => v.literal

/-- Null, false, zero, and what has no characters, items or members. -/
def isBlank : Json → Bool
  | null => true
  | bool b => !b
  | number n => n.isZero
  | str s => s.isEmpty
  | arr items => items.isEmpty
  | obj members => members.isEmpty

end Rulebook.Json
