import Rulebook.Value.Path

set_option autoImplicit false

/-!
Expressions as trees. A chain of names and indices is one path, looked up in the context by its root;
the same steps on any other expression are a subscript. Trees that are built by hand may hold
operators outside the language and objects that are no expression.
-/

namespace Rulebook

inductive BinOp where
  | or | and | eq | ne | ge | le | gt | lt | add | sub | mul | div | rem
  | other (symbol : String)
  deriving DecidableEq, Repr

inductive UnOp where
  | not | neg
  | other (symbol : String)
  deriving DecidableEq, Repr

inductive Expr where
  | lit (v : Value)
  | path (root : String) (segments : List Segment)
  | sub (receiver : Expr) (segments : List Segment)
  | bin (op : BinOp) (left right : Expr)
  | un (op : UnOp) (operand : Expr)
  | call (name : String) (args : List Expr)
  | method (receiver : Expr) (name : String) (args : List Expr)
  | foreign (typeName : String)
  deriving Inhabited

def BinOp.symbol : BinOp → String
  | .or => "OR"
  | .and => "AND"
  | .eq => "=="
  | .ne => "!="
  | .ge => ">="
  | .le => "<="
  | .gt => ">"
  | .lt => "<"
  | .add => "+"
  | .sub => "-"
  | .mul => "*"
  | .div => "/"
  | .rem => "%"
  | .other s => s

def UnOp.symbol : UnOp → String
  | .not => "NOT"
  | .neg => "-"
  | .other s => s

namespace Expr

def pathText (root : String) (segments : List Segment) : String :=
  root ++ String.join (segments.map Segment.text)

/-- One more step: it joins a path or a subscript that is there already. -/
def extend (e : Expr) (s : Segment) : Expr :=
  match e with
  | path root segments => path root (segments ++ [s])
  | sub receiver segments => sub receiver (segments ++ [s])
  | e => sub e [s]

/-- A minus joins a number literal. -/
def negate : Expr → Expr
  | lit (.number n) => lit (.number n.neg)
  | e => un .neg e

end Expr

end Rulebook
