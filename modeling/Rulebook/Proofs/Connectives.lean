import Rulebook.Proofs.Likeness

set_option autoImplicit false

/-!
`not`, `and` and `or` in trees. They obey the laws of De Morgan, association and distribution whatever their
operands come to. An operand counts only by its truth value, or by the failure to have one, and the order in which
operands are looked at is the same on both sides of every law.
-/

namespace Rulebook

/-! ### Truth values that may fail -/

namespace Outcome

variable {x x' y y' z : Outcome Bool}

/-- The second one counts only if the first one is true. -/
def both (x y : Outcome Bool) : Outcome Bool := do
  if ← x then y else return false

/-- The second one counts only if the first one is false. -/
def either (x y : Outcome Bool) : Outcome Bool := do
  if ← x then return true else y

def opposite (x : Outcome Bool) : Outcome Bool := (!·) <$> x

theorem opposite_both : opposite (both x y) = either (opposite x) (opposite y) := by
  cases x with
  | error e => rfl
  | ok a => cases a <;> rfl

theorem opposite_either : opposite (either x y) = both (opposite x) (opposite y) := by
  cases x with
  | error e => rfl
  | ok a => cases a <;> rfl

theorem both_assoc : both (both x y) z = both x (both y z) := by
  cases x with
  | error e => rfl
  | ok a => cases a <;> rfl

theorem either_assoc : either (either x y) z = either x (either y z) := by
  cases x with
  | error e => rfl
  | ok a => cases a <;> rfl

/-- On the right the first one is looked at twice, the second time only if it was true and the next one false. -/
theorem both_either : both x (either y z) = either (both x y) (both x z) := by
  cases x with
  | error e => rfl
  | ok a =>
    cases a with
    | false => rfl
    | true =>
      cases y with
      | error e => rfl
      | ok b => cases b <;> rfl

theorem either_both : either x (both y z) = both (either x y) (either x z) := by
  cases x with
  | error e => rfl
  | ok a =>
    cases a with
    | true => rfl
    | false =>
      cases y with
      | error e => rfl
      | ok b => cases b <;> rfl

theorem Alike.both (hx : Alike x x') (hy : Alike y y') : Alike (both x y) (both x' y') := by
  apply hx.bind
  intro a _
  cases a with
  | true => exact hy
  | false => exact .value false

theorem Alike.either (hx : Alike x x') (hy : Alike y y') : Alike (either x y) (either x' y') := by
  apply hx.bind
  intro a _
  cases a with
  | true => exact .value true
  | false => exact hy

theorem Alike.opposite (hx : Alike x x') : Alike (opposite x) (opposite x') := hx.map _

end Outcome

open Outcome

/-! ### Operands -/

section

variable (functions : Registry) (c : Context) (op op' : String) (a b : Expr)

/-- The truth value of an operand, where errors name its operator. -/
def truth (e : Expr) : Outcome Bool := eval functions c e >>= asBoolean op

/-- The name of the operator stands in the text of an error only. -/
theorem truth_alike (e : Expr) : Alike (truth functions c op e) (truth functions c op' e) := by
  apply (Alike.refl (eval functions c e)).bind
  intro v _
  cases v with
  | bool a => exact .value a
  | null => exact .failure rfl
  | _ => exact Value.alike_refused _ _ _

theorem asBoolean_bool (x : Outcome Bool) : (Value.bool <$> x >>= asBoolean op) = x := by
  cases x <;> rfl

theorem eval_not : eval functions c (.un .not a) = .bool <$> opposite (truth functions c "NOT" a) := by
  rw [eval, truth]
  cases eval functions c a with
  | error e => rfl
  | ok v =>
    change UnOp.apply .not v = Value.bool <$> opposite (asBoolean "NOT" v)
    rw [UnOp.apply, opposite]
    cases asBoolean "NOT" v <;> rfl

theorem eval_and :
    eval functions c (.bin .and a b) =
      .bool <$> both (truth functions c "AND" a) (truth functions c "AND" b) := by
  rw [eval, truth, truth]
  cases eval functions c a with
  | error e => rfl
  | ok v =>
    change (asBoolean "AND" v >>= _) = Value.bool <$> both (asBoolean "AND" v) _
    cases asBoolean "AND" v with
    | error e => rfl
    | ok left =>
      cases left with
      | false => rfl
      | true =>
        cases eval functions c b with
        | error e => rfl
        | ok w =>
          change (asBoolean "AND" w >>= _) = Value.bool <$> asBoolean "AND" w
          cases asBoolean "AND" w <;> rfl

theorem eval_or :
    eval functions c (.bin .or a b) =
      .bool <$> either (truth functions c "OR" a) (truth functions c "OR" b) := by
  rw [eval, truth, truth]
  cases eval functions c a with
  | error e => rfl
  | ok v =>
    change (asBoolean "OR" v >>= _) = Value.bool <$> either (asBoolean "OR" v) _
    cases asBoolean "OR" v with
    | error e => rfl
    | ok left =>
      cases left with
      | true => rfl
      | false =>
        cases eval functions c b with
        | error e => rfl
        | ok w =>
          change (asBoolean "OR" w >>= _) = Value.bool <$> asBoolean "OR" w
          cases asBoolean "OR" w <;> rfl

/-- The connectives come to truth values, which any operator takes as they are. -/
theorem truth_not : truth functions c op (.un .not a) = opposite (truth functions c "NOT" a) := by
  rw [truth, eval_not, asBoolean_bool]

theorem truth_and :
    truth functions c op (.bin .and a b) =
      both (truth functions c "AND" a) (truth functions c "AND" b) := by
  rw [truth, eval_and, asBoolean_bool]

theorem truth_or :
    truth functions c op (.bin .or a b) =
      either (truth functions c "OR" a) (truth functions c "OR" b) := by
  rw [truth, eval_or, asBoolean_bool]

end

/-! ### Laws -/

/-- One truth value, or failures of one kind. -/
inductive SameTruth : Outcome Value → Outcome Value → Prop
  | value (b : Bool) : SameTruth (.ok (.bool b)) (.ok (.bool b))
  | failure {e f : Failure} : e.kind = f.kind → SameTruth (.error e) (.error f)

theorem Outcome.Alike.sameTruth {x y : Outcome Bool} (h : Alike x y) :
    SameTruth (Value.bool <$> x) (Value.bool <$> y) := by
  cases h with
  | value b => exact .value b
  | failure hkind => exact .failure hkind

/-- Two trees come to the same truth value, or fail in the same way. -/
def Interchangeable (functions : Registry) (c : Context) (e f : Expr) : Prop :=
  SameTruth (eval functions c e) (eval functions c f)

/-- The laws of De Morgan, the laws of association and the laws of distribution hold between any three trees,
whether these come to truth values, to null, to other values, or fail. -/
theorem connectives_lawful (functions : Registry) (c : Context) (a b d : Expr) :
    Interchangeable functions c (.un .not (.bin .and a b)) (.bin .or (.un .not a) (.un .not b)) ∧
      Interchangeable functions c (.un .not (.bin .or a b)) (.bin .and (.un .not a) (.un .not b)) ∧
      Interchangeable functions c (.bin .and (.bin .and a b) d) (.bin .and a (.bin .and b d)) ∧
      Interchangeable functions c (.bin .or (.bin .or a b) d) (.bin .or a (.bin .or b d)) ∧
      Interchangeable functions c (.bin .and a (.bin .or b d)) (.bin .or (.bin .and a b) (.bin .and a d)) ∧
      Interchangeable functions c (.bin .or a (.bin .and b d))
        (.bin .and (.bin .or a b) (.bin .or a d)) := by
  -- the two sides of a law read an operand under different operators
  have alike : ∀ op op' e, Alike (truth functions c op e) (truth functions c op' e) :=
    truth_alike functions c
  unfold Interchangeable
  refine ⟨?_, ?_, ?_, ?_, ?_, ?_⟩
  · rw [eval_not, truth_and, opposite_both, eval_or, truth_not, truth_not]
    exact ((alike _ _ a).opposite.either (alike _ _ b).opposite).sameTruth
  · rw [eval_not, truth_or, opposite_either, eval_and, truth_not, truth_not]
    exact ((alike _ _ a).opposite.both (alike _ _ b).opposite).sameTruth
  · rw [eval_and, truth_and, both_assoc, eval_and, truth_and]
    exact (Alike.refl _).sameTruth
  · rw [eval_or, truth_or, either_assoc, eval_or, truth_or]
    exact (Alike.refl _).sameTruth
  · rw [eval_and, truth_or, both_either, eval_or, truth_and, truth_and]
    have hfirst := (alike "AND" "AND" a).both (alike "OR" "AND" b)
    exact (hfirst.either ((alike _ _ a).both (alike _ _ d))).sameTruth
  · rw [eval_or, truth_and, either_both, eval_and, truth_or, truth_or]
    have hfirst := (alike "OR" "OR" a).either (alike "AND" "OR" b)
    exact (hfirst.both ((alike _ _ a).either (alike _ _ d))).sameTruth

end Rulebook
