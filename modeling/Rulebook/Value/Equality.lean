import Rulebook.Value

set_option autoImplicit false

/-!
Equality of values: of one kind, numbers by exact value, lists item by item, maps key by key in any
order. Comparison stops at the first difference; it fails where it meets a foreign object first.
-/

namespace Rulebook

def sameKeys (es fs : List (Key × Value)) : Bool :=
  es.length == fs.length && es.all fun e => (fs.lookup e.1).isSome

namespace Value

mutual

def equal : Value → Value → Except ValueFault Bool
  | foreign t, _ => .error (.unsupported t)
  | _, foreign t => .error (.unsupported t)
  | null, null => .ok true
  | bool a, bool b => .ok (a == b)
  | number a, number b => .ok (a.eq b)
  | text a, text b => .ok (a == b)
  | list xs, list ys | list xs, tuple ys | tuple xs, list ys | tuple xs, tuple ys =>
    if xs.length == ys.length then equalItems xs ys else .ok false
  | map es, map fs => if sameKeys es fs then equalEntries es fs else .ok false
  | _, _ => .ok false

def equalItems : List Value → List Value → Except ValueFault Bool
  | x :: xs, y :: ys => do if ← x.equal y then equalItems xs ys else return false
  | _, _ => .ok true

def equalEntries : List (Key × Value) → List (Key × Value) → Except ValueFault Bool
  | [], _ => .ok true
  | (k, v) :: es, fs =>
    match fs.lookup k with
    | none => .ok false
    | some w => do if ← v.equal w then equalEntries es fs else return false

end

end Value

end Rulebook
