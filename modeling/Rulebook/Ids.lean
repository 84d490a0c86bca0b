set_option autoImplicit false

/-!
A supply of identifiers: one label after the other.
-/

namespace Rulebook

structure Ids where
  label : Nat → String
  next : Nat

namespace Ids

/-- The identifier that is `n` further on. -/
def nth (ids : Ids) (n : Nat) : String := ids.label (ids.next + n)

def advance (ids : Ids) (n : Nat) : Ids := { ids with next := ids.next + n }

end Ids

end Rulebook
