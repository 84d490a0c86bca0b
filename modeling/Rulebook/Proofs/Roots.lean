import Rulebook.Proofs.Values
import Rulebook.Run

set_option autoImplicit false

/-!
The names that an expression reads: those its paths start from. Contexts that hold the same values
under these names are the same to the expression, and to a rule that it is part of.
-/

namespace Rulebook

mutual

/-- The names that the paths of a tree start from. -/
def Expr.roots : Expr → List String
  | .lit _ | .foreign _ => []
  | .path root _ => [root]
  | .sub receiver _ => receiver.roots
  | .bin _ left right => left.roots ++ right.roots
  | .un _ operand => operand.roots
  | .call _ args => Expr.rootsAll args
  | .method receiver _ args => receiver.roots ++ Expr.rootsAll args

def Expr.rootsAll : List Expr → List String
  | [] => []
  | e :: es => e.roots ++ Expr.rootsAll es

end

/-- Two contexts hold the same values under some names; what is missing counts as null. -/
def Context.AgreeOn (names : List String) (c d : Context) : Prop :=
  ∀ name ∈ names, c.root name = d.root name

namespace Context

variable {xs ys : List String} {c d : Context}

theorem agreeOn_append : AgreeOn (xs ++ ys) c d ↔ AgreeOn xs c d ∧ AgreeOn ys c d := by
  simp [AgreeOn, or_imp, forall_and]

theorem agreeOn_of_find? (h : ∀ name, c.find? name = d.find? name) (names : List String) :
    AgreeOn names c d := by
  intro name _
  rw [root, root, h]

/-- An output that is not among the names can be written in one of the contexts. -/
theorem AgreeOn.setOutput {names : List String} {name : String} (hname : name ∉ names) (c : Context)
    (v : Value) : AgreeOn names (c.setOutput name v) c := by
  intro other hother
  have hne : name ≠ other := by
    rintro rfl
    exact hname hother
  rw [root_setOutput, if_neg hne]

end Context

section

variable (functions : Registry) {c d : Context}

mutual

/-- Evaluation reads nothing of its context but the values under the roots. -/
theorem eval_congr : ∀ {e : Expr}, c.AgreeOn e.roots d → eval functions c e = eval functions d e
  | .lit _, _ | .foreign _, _ => by rw [eval, eval]
  | .path root segments, h => by
    rw [eval, eval, h root (by simp [Expr.roots])]
  | .sub receiver segments, h => by
    rw [Expr.roots] at h
    rw [eval, eval, eval_congr h]
  | .bin op left right, h => by
    rw [Expr.roots, Context.agreeOn_append] at h
    have hleft := eval_congr h.1
    have hright := eval_congr h.2
    cases op <;> simp only [eval, hleft, hright]
  | .un op operand, h => by
    rw [Expr.roots] at h
    rw [eval, eval, eval_congr h]
  | .call name args, h => by
    rw [Expr.roots] at h
    rw [eval, eval, evalAll_congr h]
  | .method receiver name args, h => by
    rw [Expr.roots, Context.agreeOn_append] at h
    rw [eval, eval, eval_congr h.1, evalAll_congr h.2]

theorem evalAll_congr : ∀ {es : List Expr}, c.AgreeOn (Expr.rootsAll es) d →
    evalAll functions c es = evalAll functions d es
  | [], _ => by rw [evalAll, evalAll]
  | e :: es, h => by
    rw [Expr.rootsAll, Context.agreeOn_append] at h
    rw [evalAll, evalAll, eval_congr h.1, evalAll_congr h.2]

end

end

/-- The names that a text reads. A text that does not parse reads nothing. -/
def rootsOfText (text : String) : List String :=
  match parse text with
  | .ok e => e.roots
  | .error _ => []

namespace Rule

/-- The names that a rule reads in its condition and in its transformation. -/
def roots (r : Rule) : List String := rootsOfText r.condition ++ rootsOfText r.transformation

end Rule

theorem attempt_congr {α : Type} {nullSafe : Bool} {fallback : α} {text : String}
    {run run' : Expr → Outcome α} (h : ∀ e, parse text = .ok e → run e = run' e) :
    attempt nullSafe fallback text run = attempt nullSafe fallback text run' := by
  unfold attempt
  cases hp : parse text with
  | error unread => cases unread <;> rfl
  | ok e => simp only [h e hp]

namespace Rule

variable {nullSafe : Bool} {c d : Context} {r : Rule}

theorem attemptCondition_congr (h : c.AgreeOn r.roots d) :
    r.attemptCondition nullSafe c = r.attemptCondition nullSafe d := by
  refine attempt_congr fun e he => ?_
  have hroots : c.AgreeOn e.roots d := by
    have := (Context.agreeOn_append.mp h).1
    rwa [rootsOfText, he] at this
  rw [evalCondition, evalCondition, eval_congr _ hroots]

theorem attemptTransformation_congr (h : c.AgreeOn r.roots d) :
    r.attemptTransformation nullSafe c = r.attemptTransformation nullSafe d := by
  refine attempt_congr fun e he => ?_
  have hroots : c.AgreeOn e.roots d := by
    have := (Context.agreeOn_append.mp h).2
    rwa [rootsOfText, he] at this
  exact eval_congr _ hroots

/-- A rule does the same in contexts that agree on what it reads. -/
theorem effect_congr (h : c.AgreeOn r.roots d) : r.effect nullSafe c = r.effect nullSafe d := by
  rw [effect, effect, attemptCondition_congr h, attemptTransformation_congr h]

end Rule

end Rulebook
