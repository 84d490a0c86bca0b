import Rulebook.Value.Display

set_option autoImplicit false

/-!
Why an evaluation has no value. The six kinds of evaluation errors are properties of an expression
and its data, and a rule that meets one fails. A crash is none of these: data outside the closed
values, an object that is no expression, a number beyond binary64, or an integer of too many digits.
-/

namespace Rulebook

inductive Mismatch where
  | condition (got : Kind)
  | booleanOperand (op : String) (got : Kind)
  | comparison (op : String) (left right : Kind)
  | arithmetic (op : String) (left right : Kind)
  | operator (op : String)
  | negation (op : String) (got : Kind)
  | receiver (method : String) (got : Kind)
  | functionText (function : String) (position : Nat) (got : Kind)
  | wholeNumber (function : String) (position : Nat) (got : Kind)
  | methodText (method : String) (got : Kind)
  deriving DecidableEq, Repr

inductive EvalError where
  | nullAccess (target : String)
  | mismatch (m : Mismatch)
  | arity (name expected : String) (got : Nat)
  | unknownFunction (name : String)
  | unknownMethod (name : String)
  | divisionByZero (op : String)
  deriving DecidableEq, Repr

inductive Crash where
  | overflow
  | domain
  | digits
  | value (fault : ValueFault)
  | notExpression (typeName : String)
  deriving DecidableEq, Repr

inductive Failure where
  | error (e : EvalError)
  | crash (c : Crash)
  deriving DecidableEq, Repr

def Mismatch.detail : Mismatch → String
  | .condition k => "Condition must evaluate to boolean, got " ++ k.name
  | .booleanOperand op k => op ++ " requires boolean operands, got " ++ k.name
  | .comparison op l r => "Cannot compare " ++ l.name ++ " " ++ op ++ " " ++ r.name
  | .arithmetic op l r => "Cannot apply '" ++ op ++ "' to " ++ l.name ++ " and " ++ r.name
  | .operator op => "Unsupported operator '" ++ op ++ "'"
  | .negation op k => "Unary '" ++ op ++ "' requires a number, got " ++ k.name
  | .receiver m k => "Method " ++ m ++ "() is not defined on " ++ k.name
  | .functionText f i k =>
    f ++ " argument " ++ toString i ++ " must be a string, got " ++ k.name
  | .wholeNumber f i k =>
    f ++ " argument " ++ toString i ++ " must be an integer, got " ++ k.name
  | .methodText m k => m ++ "() argument must be a string, got " ++ k.name

namespace EvalError

def kindName : EvalError → String
  | nullAccess _ => "NULL_PROPERTY_ACCESS"
  | mismatch _ => "TYPE_MISMATCH"
  | arity _ _ _ => "ARITY_MISMATCH"
  | unknownFunction _ => "UNKNOWN_FUNCTION"
  | unknownMethod _ => "UNKNOWN_METHOD"
  | divisionByZero _ => "DIVISION_BY_ZERO"

def detail : EvalError → String
  | nullAccess target => "'" ++ target ++ "' cannot be applied to null"
  | mismatch m => m.detail
  | arity name expected got =>
    name ++ " expects " ++ expected ++ " argument(s), got " ++ toString got
  | unknownFunction name => "Unknown function '" ++ name ++ "'"
  | unknownMethod name => "Unknown method '" ++ name ++ "()'"
  | divisionByZero op => "Division by zero in '" ++ op ++ "'"

def message (e : EvalError) : String := e.kindName ++ ": " ++ e.detail

def isNullAccess : EvalError → Bool
  | nullAccess _ => true
  | _ => false

end EvalError

abbrev Outcome (α : Type) := Except Failure α

namespace Outcome

variable {α : Type}

def fail (e : EvalError) : Outcome α := .error (.error e)

def mismatch (m : Mismatch) : Outcome α := .error (.error (.mismatch m))

/-- A value fault met during evaluation is a crash. -/
def ofValue : Except ValueFault α → Outcome α
  | .ok a => .ok a
  | .error f => .error (.crash (.value f))

/-- So is a value without a text. -/
def ofDisplay : Except DisplayFault α → Outcome α
  | .ok a => .ok a
  | .error (.value f) => .error (.crash (.value f))
  | .error .digits => .error (.crash .digits)

end Outcome

def Value.kindOf (v : Value) : Outcome Kind := .ofValue v.kind

/-- What an operation accepts as a number of arguments; no upper bound if `most` is missing. -/
structure Arity where
  least : Nat
  most : Option Nat
  deriving DecidableEq, Repr

namespace Arity

def exactly (n : Nat) : Arity := ⟨n, some n⟩

def admits (a : Arity) (n : Nat) : Bool := a.least ≤ n && a.most.all (n ≤ ·)

def text (a : Arity) : String :=
  match a.most with
  | none => toString a.least ++ "+"
  | some most => if a.least = most then toString a.least else toString a.least ++ "-" ++ toString most

end Arity

end Rulebook
