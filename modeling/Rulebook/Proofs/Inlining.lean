import Rulebook.Eval

set_option autoImplicit false

/-!
An output can be read, or the expression that computes it can stand in its place. Paths that start from
the output become steps on that expression; names of functions and methods are not looked up in the
context, so they stay as they are.
-/

namespace Rulebook

namespace Expr

mutual

/-- The tree in which an expression stands for a name. -/
def inline (name : String) (e : Expr) : Expr → Expr
  | .lit v => .lit v
  | .path root segments => if root = name then .sub e segments else .path root segments
  | .sub receiver segments => .sub (inline name e receiver) segments
  | .bin op left right => .bin op (inline name e left) (inline name e right)
  | .un op operand => .un op (inline name e operand)
  | .call function args => .call function (inlineAll name e args)
  | .method receiver called args => .method (inline name e receiver) called (inlineAll name e args)
  | .foreign typeName => .foreign typeName

def inlineAll (name : String) (e : Expr) : List Expr → List Expr
  | [] => []
  | t :: ts => inline name e t :: inlineAll name e ts

end

end Expr

section

variable {functions : Registry} {c : Context} {name : String} {e : Expr} {v : Value}

/-- A path from the written name goes on from the written value, whatever fact has that name. Any other
path does not see the write. -/
theorem eval_path_setOutput (h : eval functions c e = .ok v) (root : String)
    (segments : List Segment) :
    eval functions (c.setOutput name v) (.path root segments) =
      eval functions c (Expr.inline name e (.path root segments)) := by
  rw [eval, Expr.inline, Context.root_setOutput]
  by_cases hroot : root = name
  · rw [if_pos hroot.symm, if_pos hroot, eval, h]
    rfl
  · rw [if_neg (Ne.symm hroot), if_neg hroot, eval]

mutual

theorem eval_setOutput (h : eval functions c e = .ok v) :
    ∀ t : Expr, eval functions (c.setOutput name v) t = eval functions c (Expr.inline name e t)
  | .lit _ | .foreign _ => by rw [Expr.inline, eval, eval]
  | .path root segments => eval_path_setOutput h root segments
  | .sub receiver segments => by
    rw [Expr.inline, eval, eval, eval_setOutput h receiver]
  | .bin op left right => by
    have hleft := eval_setOutput h left
    have hright := eval_setOutput h right
    -- `or` and `and` may leave their right side alone, and then they do so in both contexts
    cases op <;> simp only [Expr.inline, eval, hleft, hright]
  | .un op operand => by
    rw [Expr.inline, eval, eval, eval_setOutput h operand]
  | .call function args => by
    rw [Expr.inline, eval, eval, evalAll_setOutput h args]
  | .method receiver called args => by
    rw [Expr.inline, eval, eval, eval_setOutput h receiver, evalAll_setOutput h args]

theorem evalAll_setOutput (h : eval functions c e = .ok v) :
    ∀ ts : List Expr,
      evalAll functions (c.setOutput name v) ts = evalAll functions c (Expr.inlineAll name e ts)
  | [] => by rw [Expr.inlineAll, evalAll, evalAll]
  | t :: ts => by
    rw [Expr.inlineAll, evalAll, evalAll, eval_setOutput h t, evalAll_setOutput h ts]

end

end

/-- An expression or a condition comes to the same where a value was written under a name, and where
the expression that gave this value stands for the name. -/
theorem eval_inline (functions : Registry) (c : Context) (name : String) {e : Expr} {v : Value}
    (h : eval functions c e = .ok v) (t : Expr) :
    eval functions (c.setOutput name v) t = eval functions c (Expr.inline name e t) ∧
      evalCondition functions (c.setOutput name v) t =
        evalCondition functions c (Expr.inline name e t) := by
  have heval : eval functions (c.setOutput name v) t = eval functions c (Expr.inline name e t) :=
    eval_setOutput h t
  refine ⟨heval, ?_⟩
  rw [evalCondition, evalCondition, heval]

/-- An order with a fact that the name `first` is going to hide. -/
def ofOrder : Context :=
  ⟨[("order", .map [(.text "items", .list [.int 4, .int 5])]), ("first", .int 9)], []⟩

/-- A step from the name that is written, and a function of that name, which is not called. -/
def throughFirst : Expr :=
  .bin .or (.bin .gt (.path "first" [.index 1]) (.path "first" [.index 0]))
    (.call "first" [.path "first" []])

theorem eval_inline_ofOrder :
    eval .builtin ofOrder (.path "order" [.key "items"]) = .ok (.list [.int 4, .int 5]) ∧
      eval .builtin (ofOrder.setOutput "first" (.list [.int 4, .int 5])) throughFirst =
        eval .builtin ofOrder (Expr.inline "first" (.path "order" [.key "items"]) throughFirst) ∧
      eval .builtin (ofOrder.setOutput "first" (.list [.int 4, .int 5])) throughFirst =
        .ok (.bool true) := by
  have hitems : eval .builtin ofOrder (.path "order" [.key "items"]) =
      .ok (.list [.int 4, .int 5]) := rfl
  exact ⟨hitems, (eval_inline .builtin ofOrder "first" hitems throughFirst).1, rfl⟩

end Rulebook
