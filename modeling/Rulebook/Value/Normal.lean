import Rulebook.Value

set_option autoImplicit false

/-!
Normalisation: tuples become lists, and data outside the closed values is refused, at any depth. The
first offence in reading order is the one reported; a map's key is looked at before its value.
-/

namespace Rulebook.Value

mutual

def normalize : Value → Except ValueFault Value
  | list items | tuple items => do return .list (← normalizeItems items)
  | map entries => do return .map (← normalizeEntries entries)
  | foreign t => .error (.unsupported t)
  | v => .ok v

def normalizeItems : List Value → Except ValueFault (List Value)
  | [] => .ok []
  | v :: vs => do return (← v.normalize) :: (← normalizeItems vs)

def normalizeEntries : List (Key × Value) → Except ValueFault (List (Key × Value))
  | [] => .ok []
  | (.text s, v) :: es => do return (.text s, ← v.normalize) :: (← normalizeEntries es)
  | (k, _) :: _ => .error (.keyNotText k.typeName)

end

mutual

/-- Closed values: no tuple, no foreign object, no key but texts, at any depth. -/
def Closed : Value → Prop
  | list items => ClosedItems items
  | map entries => ClosedEntries entries
  | tuple _ | foreign _ => False
  | _ => True

def ClosedItems : List Value → Prop
  | [] => True
  | v :: vs => v.Closed ∧ ClosedItems vs

def ClosedEntries : List (Key × Value) → Prop
  | [] => True
  | (.text _, v) :: es => v.Closed ∧ ClosedEntries es
  | _ => False

end

end Rulebook.Value
