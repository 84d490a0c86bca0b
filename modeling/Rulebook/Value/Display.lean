import Rulebook.Value

set_option autoImplicit false

/-!
The text that a value shows: texts as they are, lists in square brackets, maps as `key=value` pairs in
braces, in their own order. It is meant for reading and cannot be read back. An integer of too many
digits has no text.
-/

namespace Rulebook

/-- Why a value has no text. -/
inductive DisplayFault where
  | value (fault : ValueFault)
  | digits
  deriving DecidableEq, Repr

namespace Value

mutual

def display : Value → Except DisplayFault Text
  | null => .ok "null"
  | bool b => .ok (if b then "true" else "false")
  | number n => if n.isWritable then .ok n.toText else .error .digits
  | text s => .ok s
  | list items | tuple items => do return "[" ++ List.intercalate ", " (← displayItems items) ++ "]"
  | map entries => do return "\x7b" ++ List.intercalate ", " (← displayEntries entries) ++ "\x7d"
  | foreign t => .error (.value (.unsupported t))

def displayItems : List Value → Except DisplayFault (List Text)
  | [] => .ok []
  | v :: vs => do return (← v.display) :: (← displayItems vs)

def displayEntries : List (Key × Value) → Except DisplayFault (List Text)
  | [] => .ok []
  | (k, v) :: es =>
    if k.isWritable then do return (k.display ++ "=" ++ (← v.display)) :: (← displayEntries es)
    else .error .digits

end

end Value

end Rulebook
