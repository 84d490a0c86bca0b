set_option autoImplicit false

/-!
The result of a reading step: what was read, and the input that is left. There is less input left
than a bound, so that readers which call each other on the rest come to an end.
-/

namespace Rulebook

structure Reading (τ α : Type) (bound : Nat) where
  value : α
  rest : List τ
  fewer : rest.length < bound

namespace Reading

variable {τ α β : Type} {m n : Nat}

def weaken (r : Reading τ α m) (h : m ≤ n) : Reading τ α n :=
  ⟨r.value, r.rest, Nat.lt_of_lt_of_le r.fewer h⟩

def map (f : α → β) (r : Reading τ α m) : Reading τ β m := ⟨f r.value, r.rest, r.fewer⟩

/-- What was read with what is left, without the bound. -/
def pair (r : Reading τ α m) : α × List τ := (r.value, r.rest)

end Reading

end Rulebook
