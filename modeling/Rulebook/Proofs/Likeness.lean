import Rulebook.Eval

set_option autoImplicit false

/-!
Outcomes that are alike: the same value, errors of one kind, or the same crash. What an error says of operators,
functions and positions makes no difference.
-/

namespace Rulebook

/-- What tells failures apart if the texts of errors do not count: the kind of the error, or the crash. -/
def Failure.kind : Failure → String ⊕ Crash
  | .error e => .inl e.kindName
  | .crash c => .inr c

namespace Outcome

variable {α β : Type}

/-- One value, or failures of one kind. -/
inductive Alike : Outcome α → Outcome α → Prop
  | value (a : α) : Alike (.ok a) (.ok a)
  | failure {e f : Failure} : e.kind = f.kind → Alike (.error e) (.error f)

theorem Alike.refl (x : Outcome α) : Alike x x := by
  cases x with
  | ok a => exact .value a
  | error e => exact .failure rfl

theorem alike_mismatch (m n : Mismatch) : Alike (mismatch m : Outcome α) (mismatch n) := .failure rfl

theorem alike_arity (f g expected expected' : String) (got got' : Nat) :
    Alike (fail (.arity f expected got) : Outcome α) (fail (.arity g expected' got')) := .failure rfl

/-- Going on in like ways keeps outcomes alike. -/
theorem Alike.bind {x y : Outcome α} {f g : α → Outcome β} (h : Alike x y)
    (hfg : ∀ a, x = .ok a → Alike (f a) (g a)) : Alike (x >>= f) (y >>= g) := by
  cases h with
  | value a => exact hfg a rfl
  | failure hkind => exact .failure hkind

theorem Alike.map {x y : Outcome α} (h : Alike x y) (f : α → β) : Alike (f <$> x) (f <$> y) := by
  cases h with
  | value a => exact .value (f a)
  | failure hkind => exact .failure hkind

end Outcome

/-- A value that does not fit is refused with the same kind of error wherever it is met. -/
theorem Value.alike_refused {α : Type} (v : Value) (f g : Kind → Mismatch) :
    Outcome.Alike (v.kindOf >>= fun k => (Outcome.mismatch (f k) : Outcome α))
      (v.kindOf >>= fun k => Outcome.mismatch (g k)) := by
  apply (Outcome.Alike.refl v.kindOf).bind
  intro k _
  exact Outcome.alike_mismatch (f k) (g k)

end Rulebook
