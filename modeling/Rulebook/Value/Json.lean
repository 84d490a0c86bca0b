import Rulebook.Json
import Rulebook.Value

set_option autoImplicit false

/-!
Values as JSON documents and back. Closed values are written without loss; of other data a tuple is
written as a list, a key as its display text, and a foreign object as null.
-/

namespace Rulebook

mutual

def Value.toJson : Value → Json
  | .null => .null
  | .bool b => .bool b
  | .number n => .number n
  | .text s => .str s
  | .list items | .tuple items => .arr (Value.itemsToJson items)
  | .map entries => .obj (Value.entriesToJson entries)
  | .foreign _ => .null

def Value.itemsToJson : List Value → List Json
  | [] => []
  | v :: vs => v.toJson :: Value.itemsToJson vs

def Value.entriesToJson : List (Key × Value) → List (Text × Json)
  | [] => []
  | (k, v) :: es => (k.display, v.toJson) :: Value.entriesToJson es

end

mutual

def Json.toValue : Json → Value
  | .null => .null
  | .bool b => .bool b
  | .number n => .number n
  | .str s => .text s
  | .arr items => .list (Json.itemsToValue items)
  | .obj members => .map (Json.membersToValue members)

def Json.itemsToValue : List Json → List Value
  | [] => []
  | v :: vs => v.toValue :: Json.itemsToValue vs

def Json.membersToValue : List (Text × Json) → List (Key × Value)
  | [] => []
  | (k, v) :: ms => (.text k, v.toValue) :: Json.membersToValue ms

end

end Rulebook
