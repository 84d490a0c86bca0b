import Rulebook.Proofs.Values
import Rulebook.Run

set_option autoImplicit false

/-!
What a rule comes to in a context, told without the run: it skips, it fires with a value, or it halts.
The condition decides first; only if it holds is there anything to say of the transformation.
-/

namespace Rulebook

section

variable {α : Type}

/-- What evaluating a text yields. A null-safe run takes the fallback for an access to null. -/
inductive Yields (nullSafe : Bool) (fallback : α) (text : String) (run : Expr → Outcome α) : α → Prop
  | value {e : Expr} {a : α} : parse text = .ok e → run e = .ok a → Yields nullSafe fallback text run a
  | forgiven {e : Expr} {err : EvalError} : nullSafe = true → parse text = .ok e →
      run e = .error (.error err) → err.isNullAccess = true →
      Yields nullSafe fallback text run fallback

/-- Why evaluating a text yields nothing. -/
inductive Breaks (nullSafe : Bool) (text : String) (run : Expr → Outcome α) : Halt → Prop
  | text {fault : ParseError} : parse text = .error (.fault fault) →
      Breaks nullSafe text run (.cause (.parse fault))
  | digits : parse text = .error .digits → Breaks nullSafe text run (.crash .digits)
  | error {e : Expr} {err : EvalError} : parse text = .ok e → run e = .error (.error err) →
      ¬ (nullSafe = true ∧ err.isNullAccess = true) → Breaks nullSafe text run (.cause (.eval err))
  | crash {e : Expr} {c : Crash} : parse text = .ok e → run e = .error (.crash c) →
      Breaks nullSafe text run (.crash c)

variable {nullSafe : Bool} {fallback : α} {text : String} {run : Expr → Outcome α}

theorem attempt_of_fault {fault : ParseError} (hp : parse text = .error (.fault fault)) :
    attempt nullSafe fallback text run = ⟨none, .error (.cause (.parse fault))⟩ := by
  simp only [attempt, hp]

theorem attempt_of_digits (hp : parse text = .error .digits) :
    attempt nullSafe fallback text run = ⟨none, .error (.crash .digits)⟩ := by
  simp only [attempt, hp]

theorem attempt_of_ok {e : Expr} {a : α} (hp : parse text = .ok e) (hr : run e = .ok a) :
    attempt nullSafe fallback text run = ⟨none, .ok a⟩ := by
  simp only [attempt, hp, hr]

theorem attempt_of_crash {e : Expr} {c : Crash} (hp : parse text = .ok e)
    (hr : run e = .error (.crash c)) :
    attempt nullSafe fallback text run = ⟨none, .error (.crash c)⟩ := by
  simp only [attempt, hp, hr]

theorem attempt_of_error {e : Expr} {err : EvalError} (hp : parse text = .ok e)
    (hr : run e = .error (.error err)) :
    attempt nullSafe fallback text run =
      if nullSafe = true ∧ err.isNullAccess = true then ⟨some err, .ok fallback⟩
      else ⟨none, .error (.cause (.eval err))⟩ := by
  simp only [attempt, hp, hr, Bool.and_eq_true]

/-- An attempt yields or breaks, and it does what it says. -/
theorem attempt_spec (nullSafe : Bool) (fallback : α) (text : String) (run : Expr → Outcome α) :
    match (attempt nullSafe fallback text run).result with
    | .ok a => Yields nullSafe fallback text run a
    | .error h => Breaks nullSafe text run h := by
  cases hp : parse text with
  | error unread =>
    cases unread with
    | fault fault =>
      rw [attempt_of_fault hp]
      exact .text hp
    | digits =>
      rw [attempt_of_digits hp]
      exact .digits hp
  | ok e =>
    cases hr : run e with
    | ok a =>
      rw [attempt_of_ok hp hr]
      exact .value hp hr
    | error failure =>
      cases failure with
      | crash c =>
        rw [attempt_of_crash hp hr]
        exact .crash hp hr
      | error err =>
        rw [attempt_of_error hp hr]
        by_cases hnull : nullSafe = true ∧ err.isNullAccess = true
        · rw [if_pos hnull]
          exact .forgiven hnull.1 hp hr hnull.2
        · rw [if_neg hnull]
          exact .error hp hr hnull

theorem attempt_result_ok_iff {a : α} :
    (attempt nullSafe fallback text run).result = .ok a ↔ Yields nullSafe fallback text run a := by
  constructor
  · intro h
    have hspec := attempt_spec nullSafe fallback text run
    rwa [h] at hspec
  · intro h
    cases h with
    | value hp hr => rw [attempt_of_ok hp hr]
    | forgiven hsafe hp hr hnull => rw [attempt_of_error hp hr, if_pos ⟨hsafe, hnull⟩]

theorem attempt_result_error_iff {h : Halt} :
    (attempt nullSafe fallback text run).result = .error h ↔ Breaks nullSafe text run h := by
  constructor
  · intro hk
    have hspec := attempt_spec nullSafe fallback text run
    rwa [hk] at hspec
  · intro hk
    cases hk with
    | text hp => rw [attempt_of_fault hp]
    | digits hp => rw [attempt_of_digits hp]
    | error hp hr hnull => rw [attempt_of_error hp hr, if_neg hnull]
    | crash hp hr => rw [attempt_of_crash hp hr]

/-- Where a null-safe attempt forgives nothing, the strict one is the same; where it forgives an access
to null, the strict one fails with it. -/
theorem attempt_strict_eq :
    match (attempt true fallback text run).forgiven with
    | none => attempt false fallback text run = attempt true fallback text run
    | some err => err.isNullAccess = true ∧ (attempt true fallback text run).result = .ok fallback ∧
        attempt false fallback text run = ⟨none, .error (.cause (.eval err))⟩ := by
  cases hp : parse text with
  | error unread =>
    cases unread with
    | fault fault => rw [attempt_of_fault hp, attempt_of_fault hp]
    | digits => rw [attempt_of_digits hp, attempt_of_digits hp]
  | ok e =>
    cases hr : run e with
    | ok a => rw [attempt_of_ok hp hr, attempt_of_ok hp hr]
    | error failure =>
      cases failure with
      | crash c => rw [attempt_of_crash hp hr, attempt_of_crash hp hr]
      | error err =>
        have hstrict : attempt false fallback text run = ⟨none, .error (.cause (.eval err))⟩ := by
          rw [attempt_of_error hp hr, if_neg (by simp)]
        rw [hstrict, attempt_of_error hp hr]
        by_cases hnull : err.isNullAccess = true
        · rw [if_pos ⟨rfl, hnull⟩]
          exact ⟨hnull, rfl, rfl⟩
        · rw [if_neg (by simp [hnull])]

end

namespace Rule

/-- The condition is false, or it takes null for a value and the run is null-safe. -/
def Skips (nullSafe : Bool) (c : Context) (r : Rule) : Prop :=
  Yields nullSafe false r.condition (evalCondition .builtin c) false

/-- The condition is true, and the transformation gives a value, or null where it takes null for a
value and the run is null-safe. -/
def Fires (nullSafe : Bool) (c : Context) (r : Rule) (v : Value) : Prop :=
  Yields nullSafe false r.condition (evalCondition .builtin c) true ∧
    Yields nullSafe .null r.transformation (eval .builtin c) v

/-- The condition breaks, or it is true and the transformation breaks. -/
inductive Halts (nullSafe : Bool) (c : Context) (r : Rule) : Halt → Prop
  | condition {h : Halt} :
      Breaks nullSafe r.condition (evalCondition .builtin c) h → Halts nullSafe c r h
  | transformation {h : Halt} : Yields nullSafe false r.condition (evalCondition .builtin c) true →
      Breaks nullSafe r.transformation (eval .builtin c) h → Halts nullSafe c r h

variable {nullSafe : Bool} {c : Context} {r : Rule}

theorem effect_of_condition_error {h : Halt} (hc : (r.attemptCondition nullSafe c).result = .error h) :
    r.effect nullSafe c = .error h := by
  rw [effect, hc]
  rfl

theorem effect_of_false (hc : (r.attemptCondition nullSafe c).result = .ok false) :
    r.effect nullSafe c = .ok none := by
  rw [effect, hc]
  rfl

theorem effect_of_true (hc : (r.attemptCondition nullSafe c).result = .ok true) :
    r.effect nullSafe c = some <$> (r.attemptTransformation nullSafe c).result := by
  rw [effect, hc]
  cases (r.attemptTransformation nullSafe c).result <;> rfl

/-- A rule skips, fires or halts, and its effect says which. -/
theorem effect_spec (nullSafe : Bool) (c : Context) (r : Rule) :
    match r.effect nullSafe c with
    | .ok none => r.Skips nullSafe c
    | .ok (some v) => r.Fires nullSafe c v
    | .error h => r.Halts nullSafe c h := by
  cases hc : (r.attemptCondition nullSafe c).result with
  | error h =>
    rw [effect_of_condition_error hc]
    exact .condition (attempt_result_error_iff.mp hc)
  | ok holds =>
    cases holds with
    | false =>
      rw [effect_of_false hc]
      exact attempt_result_ok_iff.mp hc
    | true =>
      have hcondition := attempt_result_ok_iff.mp hc
      rw [effect_of_true hc]
      cases ht : (r.attemptTransformation nullSafe c).result with
      | error h => exact .transformation hcondition (attempt_result_error_iff.mp ht)
      | ok v => exact ⟨hcondition, attempt_result_ok_iff.mp ht⟩

theorem effect_eq_none_iff : r.effect nullSafe c = .ok none ↔ r.Skips nullSafe c := by
  constructor
  · intro h
    have hspec := effect_spec nullSafe c r
    rwa [h] at hspec
  · exact fun h => effect_of_false (attempt_result_ok_iff.mpr h)

theorem effect_eq_some_iff {v : Value} :
    r.effect nullSafe c = .ok (some v) ↔ r.Fires nullSafe c v := by
  constructor
  · intro h
    have hspec := effect_spec nullSafe c r
    rwa [h] at hspec
  · rintro ⟨hcondition, htransformation⟩
    have ht : (r.attemptTransformation nullSafe c).result = .ok v :=
      attempt_result_ok_iff.mpr htransformation
    rw [effect_of_true (attempt_result_ok_iff.mpr hcondition), ht]
    rfl

theorem effect_eq_error_iff {h : Halt} :
    r.effect nullSafe c = .error h ↔ r.Halts nullSafe c h := by
  constructor
  · intro hk
    have hspec := effect_spec nullSafe c r
    rwa [hk] at hspec
  · intro hk
    cases hk with
    | condition hb => exact effect_of_condition_error (attempt_result_error_iff.mpr hb)
    | transformation hcondition hb =>
      have ht : (r.attemptTransformation nullSafe c).result = .error h :=
        attempt_result_error_iff.mpr hb
      rw [effect_of_true (attempt_result_ok_iff.mpr hcondition), ht]
      rfl

end Rule

end Rulebook
