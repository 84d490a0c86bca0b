import Rulebook.Eval.Context
import Rulebook.Eval.Method
import Rulebook.Eval.Registry
import Rulebook.Expr
import Rulebook.Value.Equality

set_option autoImplicit false

/-!
Evaluation of expressions in a context. A path that leads nowhere is null; using null as an operand or
as the receiver of a method is an error of its own kind, which a run may forgive. `or` and `and` look
at their right side only if the left one does not decide. A host's bound on the depth of the recursion has
no part here.
-/

namespace Rulebook

def asBoolean (op : String) : Value → Outcome Bool
  | .bool b => .ok b
  | .null => .fail (.nullAccess op)
  | v => do .mismatch (.booleanOperand op (← v.kindOf))

/-- The value of a condition: null and other values than booleans are refused. -/
def asCondition : Value → Outcome Bool
  | .bool b => .ok b
  | .null => .fail (.nullAccess "condition")
  | v => do .mismatch (.condition (← v.kindOf))

namespace BinOp

def arith? : BinOp → Option ArithOp
  | add => some .add
  | sub => some .sub
  | mul => some .mul
  | div => some .div
  | rem => some .rem
  | _ => none

def isOrder : BinOp → Bool
  | ge | le | gt | lt => true
  | _ => false

/-- The order operators, from the strict and the weak order of their operands. -/
def holds {α : Type} (below atMost : α → α → Bool) (op : BinOp) (a b : α) : Bool :=
  match op with
  | gt => below b a
  | ge => atMost b a
  | lt => below a b
  | le => atMost a b
  | _ => false

def compare (op : BinOp) (left right : Value) (leftKind rightKind : Kind) : Outcome Value :=
  match left, right with
  | .number a, .number b => .ok (.bool (op.holds Number.lt Number.le a b))
  | .text s, .text t =>
    .ok (.bool (op.holds Text.precedes (fun s t => !Text.precedes t s) s t))
  | _, _ => .mismatch (.comparison op.symbol leftKind rightKind)

def ofArith (op : BinOp) : Except ArithFault Number → Outcome Value
  | .ok n => .ok (.number n)
  | .error .divisionByZero => .fail (.divisionByZero op.symbol)
  | .error .overflow => .error (.crash .overflow)
  | .error .domain => .error (.crash .domain)

/-- A plus with a text on either side joins the displayed operands. -/
def calculate (op : BinOp) (arith : ArithOp) (left right : Value) (leftKind rightKind : Kind) :
    Outcome Value :=
  if arith = .add ∧ (leftKind = .string ∨ rightKind = .string) then do
    let s ← .ofDisplay left.display
    let t ← .ofDisplay right.display
    return .text (s ++ t)
  else
    match left, right with
    | .number a, .number b => op.ofArith (a.arith arith b)
    | _, _ => .mismatch (.arithmetic op.symbol leftKind rightKind)

/-- The operators that evaluate both operands first. -/
def apply (op : BinOp) (left right : Value) : Outcome Value :=
  match op with
  | eq => .bool <$> .ofValue (left.equal right)
  | ne => (fun b => .bool !b) <$> .ofValue (left.equal right)
  | op =>
    if left.isNull || right.isNull then .fail (.nullAccess op.symbol)
    else do
      let leftKind ← left.kindOf
      let rightKind ← right.kindOf
      if op.isOrder then op.compare left right leftKind rightKind
      else
        match op.arith? with
        | some arith => op.calculate arith left right leftKind rightKind
        | none => .mismatch (.operator op.symbol)

end BinOp

namespace UnOp

/-- Every operator but `not` negates a number. -/
def apply (op : UnOp) (v : Value) : Outcome Value :=
  match op with
  | not => (fun b => .bool !b) <$> asBoolean "NOT" v
  | op =>
    match v with
    | .null => .fail (.nullAccess op.symbol)
    | .number n => .ok (.number n.neg)
    | v => do .mismatch (.negation op.symbol (← v.kindOf))

end UnOp

mutual

def eval (functions : Registry) (c : Context) : Expr → Outcome Value
  | .lit v => .ok v
  | .path root segments => .ok ((c.root root).traverse segments)
  | .sub receiver segments => do return (← eval functions c receiver).traverse segments
  | .bin .and left right => do
    let a ← asBoolean "AND" (← eval functions c left)
    if a then return .bool (← asBoolean "AND" (← eval functions c right)) else return .bool false
  | .bin .or left right => do
    let a ← asBoolean "OR" (← eval functions c left)
    if a then return .bool true else return .bool (← asBoolean "OR" (← eval functions c right))
  | .bin op left right => do
    let a ← eval functions c left
    let b ← eval functions c right
    op.apply a b
  | .un op operand => do op.apply (← eval functions c operand)
  | .call name args =>
    match functions.find? name with
    | none => .fail (.unknownFunction name)
    | some f => do f.call (← evalAll functions c args)
  | .method receiver name args => do
    let r ← eval functions c receiver
    if r.isNull then .fail (.nullAccess (name ++ "()"))
    else Method.invoke r name (← evalAll functions c args)
  | .foreign typeName => .error (.crash (.notExpression typeName))

def evalAll (functions : Registry) (c : Context) : List Expr → Outcome (List Value)
  | [] => .ok []
  | e :: es => do
    let v ← eval functions c e
    return v :: (← evalAll functions c es)

end

def evalCondition (functions : Registry) (c : Context) (e : Expr) : Outcome Bool := do
  asCondition (← eval functions c e)

end Rulebook
