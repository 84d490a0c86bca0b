import Rulebook.Eval
import Rulebook.Proofs.Parsing

set_option autoImplicit false

/-!
The compact form of a tree has the meaning of the tree. Steps that are joined are taken one after the other,
and a minus that is folded into a number negates it just as well, so what a text comes to can be read off
the derivation of its tokens.
-/

namespace Rulebook

open Grammar

section

variable (functions : Registry) (c : Context)

theorem eval_join (e : Expr) (more : List Segment) :
    eval functions c (e.join more) = eval functions c (.sub e more) := by
  cases e with
  | path root segments =>
    rw [Expr.join, eval, eval, eval, Value.traverse_append]
    rfl
  | sub receiver segments =>
    rw [Expr.join, eval, eval, eval]
    cases eval functions c receiver with
    | error failure => rfl
    | ok v => exact congrArg Except.ok (v.traverse_append segments more)
  | _ => rfl

theorem eval_fold (op : UnOp) (e : Expr) :
    eval functions c (Expr.fold op e) = eval functions c (.un op e) := by
  unfold Expr.fold
  split
  · next n =>
    rw [eval, eval, eval]
    rfl
  · rfl

mutual

theorem eval_compact : ∀ e : Expr, eval functions c e.compact = eval functions c e
  | .lit _ | .path _ _ | .foreign _ => by rw [Expr.compact]
  | .sub receiver segments => by
    rw [Expr.compact, eval_join, eval, eval, eval_compact receiver]
  | .bin op left right => by
    have hleft := eval_compact left
    have hright := eval_compact right
    cases op <;> simp only [Expr.compact, eval, hleft, hright]
  | .un op operand => by
    rw [Expr.compact, eval_fold, eval, eval, eval_compact operand]
  | .call name args => by
    rw [Expr.compact, eval, eval, evalAll_compactAll args]
  | .method receiver name args => by
    rw [Expr.compact, eval, eval, eval_compact receiver, evalAll_compactAll args]

theorem evalAll_compactAll :
    ∀ es : List Expr, evalAll functions c (Expr.compactAll es) = evalAll functions c es
  | [] => by rw [Expr.compactAll]
  | e :: es => by
    rw [Expr.compactAll, evalAll, evalAll, eval_compact e, evalAll_compactAll es]

end

theorem eval_plain {n : Nat} (d : Derivation (.level n)) :
    eval functions c d.plain = eval functions c d.tree := by
  rw [← d.compact_plain]
  exact (eval_compact functions c d.plain).symm

end

/-- The tokens of a parsed text have one derivation. In every context its plain tree, in which each step and
each minus is a node of its own, evaluates to the same value or the same failure as the tree that was
parsed, as an expression and as a condition. -/
theorem parse_preserves_meaning {text : String} {e : Expr} (h : parse text = .ok e) :
    ∃ (ts : List Token) (d : Derivation (.level 6)), Token.scan text = .ok ts ∧ d.tokens = ts ∧
      (∀ d' : Derivation (.level 6), d'.tokens = ts → d' = d) ∧
      ∀ (functions : Registry) (c : Context),
        eval functions c e = eval functions c d.plain ∧
          evalCondition functions c e = evalCondition functions c d.plain := by
  cases hscan : Token.scan text with
  | error fault =>
    rw [parse_of_scan_error hscan] at h
    cases h
  | ok ts =>
    obtain ⟨d, htokens, rfl⟩ := (parse_eq_ok_iff hscan).mp h
    refine ⟨ts, d, rfl, htokens, ?_, ?_⟩
    · intro d' htokens'
      exact Derivation.tokens_injective (htokens'.trans htokens.symm)
    · intro functions c
      have heval := eval_plain functions c d
      exact ⟨heval.symm, by rw [evalCondition, evalCondition, heval]⟩

/-- A cart in the facts, and an output that hides the fact `rate`. -/
def ofCart : Context :=
  ⟨[("cart", .map [(.text "items", .list [.int 4, .int 5])]), ("rate", .int 9)], [("rate", .null)]⟩

/-- Two minuses that are folded into a number, and steps that are joined across parentheses. -/
theorem parse_preserves_meaning_ofCart :
    parse "-(-2) * ((cart).items)[1]" =
        .ok (.bin .mul (.lit (.number (.int 2))) (.path "cart" [.key "items", .index 1])) ∧
      ∃ (ts : List Token) (d : Derivation (.level 6)),
        Token.scan "-(-2) * ((cart).items)[1]" = .ok ts ∧ d.tokens = ts ∧
          (∀ d' : Derivation (.level 6), d'.tokens = ts → d' = d) ∧
          eval .builtin ofCart d.plain = .ok (.int 10) := by
  have hparse : parse "-(-2) * ((cart).items)[1]" =
      .ok (.bin .mul (.lit (.number (.int 2))) (.path "cart" [.key "items", .index 1])) := by
    with_unfolding_all rfl
  obtain ⟨ts, d, hscan, htokens, hunique, heval⟩ := parse_preserves_meaning hparse
  refine ⟨hparse, ts, d, hscan, htokens, hunique, ?_⟩
  rw [← (heval .builtin ofCart).1]
  rfl

end Rulebook
