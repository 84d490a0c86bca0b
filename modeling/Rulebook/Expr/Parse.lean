import Rulebook.Expr
import Rulebook.Reading
import Rulebook.Token.Scan

set_option autoImplicit false

/-!
Parsing by recursive descent: `or`, `and`, equality, order, sums, products, each level joining the
operands of the next one to the left; then `not` and minus, then member and index steps, then the
single operands. Every step leaves fewer tokens, which bounds the recursion. Texts of expressions are
strings, so half a surrogate pair stands in none of them, and a host's bound on the depth of the recursion
has no part here.
-/

namespace Rulebook

/-- The binding strength of an operator; products bind most. -/
def BinOp.level : BinOp → Nat
  | .or => 6
  | .and => 5
  | .eq | .ne => 4
  | .ge | .le | .gt | .lt => 3
  | .add | .sub => 2
  | .mul | .div | .rem => 1
  | .other _ => 0

def TokenKind.binOp? : TokenKind → Option BinOp
  | .or => some .or
  | .and => some .and
  | .eq => some .eq
  | .ne => some .ne
  | .ge => some .ge
  | .le => some .le
  | .gt => some .gt
  | .lt => some .lt
  | .plus => some .add
  | .minus => some .sub
  | .star => some .mul
  | .slash => some .div
  | .percent => some .rem
  | _ => none

namespace Parse

abbrev Result (α : Type) (bound : Nat) := Reading Token α bound

def fault {α : Type} (position : Nat) (reason : Reason) : Except SyntaxFault α :=
  .error ⟨position, reason⟩

/-- The literal that a token is by itself. -/
def literal? : TokenKind → Option Value
  | .int n => some (.number (.int n))
  | .float x => some (.number (.float x))
  | .text s => some (.text s)
  | .true => some (.bool true)
  | .false => some (.bool false)
  | .null => some .null
  | _ => none

/-- The position of the next token, or of the end of the text. -/
def here (endPosition : Nat) : List Token → Nat
  | [] => endPosition
  | t :: _ => t.position

mutual

/-- Operators of strength `level` and below; without any, a unary expression. -/
def binary (endPosition level : Nat) (ts : List Token) : Except SyntaxFault (Result Expr ts.length) :=
  match level with
  | 0 => unary endPosition ts
  | level + 1 => do
    let ⟨left, rest, h⟩ ← binary endPosition level ts
    let r ← chain endPosition level left rest
    return r.weaken h
termination_by 10 * ts.length + level + 3

/-- Further operands of strength `level + 1`, joined to the left. -/
def chain (endPosition level : Nat) (left : Expr) (ts : List Token) :
    Except SyntaxFault (Result Expr (ts.length + 1)) :=
  match ts with
  | [] => return ⟨left, [], by simp⟩
  | t :: rest =>
    match t.kind.binOp? with
    | some op =>
      if op.level = level + 1 then do
        let ⟨right, rest', h⟩ ← binary endPosition level rest
        let r ← chain endPosition level (.bin op left right) rest'
        return r.weaken (by simp; omega)
      else return ⟨left, t :: rest, by simp⟩
    | none => return ⟨left, t :: rest, by simp⟩
termination_by 10 * ts.length + level + 3

def unary (endPosition : Nat) (ts : List Token) : Except SyntaxFault (Result Expr ts.length) :=
  match ts with
  | ⟨.not, _, _⟩ :: rest => do
    let ⟨e, rest', h⟩ ← unary endPosition rest
    return ⟨.un .not e, rest', by simp; omega⟩
  | ⟨.minus, _, _⟩ :: rest => do
    let ⟨e, rest', h⟩ ← unary endPosition rest
    return ⟨e.negate, rest', by simp; omega⟩
  | ts => do
    let ⟨e, rest, h⟩ ← primary endPosition ts
    let r ← steps endPosition e rest
    return r.weaken h
termination_by 10 * ts.length + 2

/-- Members, methods and indices that follow an operand. -/
def steps (endPosition : Nat) (e : Expr) (ts : List Token) :
    Except SyntaxFault (Result Expr (ts.length + 1)) :=
  match ts with
  | ⟨.dot, _, _⟩ :: name :: rest =>
    if name.kind.namesMember then
      match rest with
      | ⟨.openParen, _, position⟩ :: rest => do
        let ⟨args, rest', h⟩ ← arguments endPosition position rest
        let r ← steps endPosition (.method e name.text args) rest'
        return r.weaken (by simp; omega)
      | rest => do
        let r ← steps endPosition (e.extend (.key name.text)) rest
        return r.weaken (by simp)
    else fault name.position .memberName
  | [⟨.dot, _, _⟩] => fault endPosition .memberName
  | ⟨.openBracket, _, position⟩ :: ⟨.int n, _, _⟩ :: rest =>
    match rest with
    | ⟨.closeBracket, _, _⟩ :: rest => do
      let r ← steps endPosition (e.extend (.index n)) rest
      return r.weaken (by simp)
    | _ => fault position .unmatchedBracket
  | ⟨.openBracket, _, _⟩ :: rest => fault (here endPosition rest) .arrayIndex
  | ts => return ⟨e, ts, by simp⟩
termination_by 10 * ts.length

/-- The arguments after an opening parenthesis at `position`, with the closing one. -/
def arguments (endPosition position : Nat) (ts : List Token) :
    Except SyntaxFault (Result (List Expr) ts.length) :=
  match ts with
  | ⟨.closeParen, _, _⟩ :: rest => return ⟨[], rest, by simp⟩
  | ts => argumentList endPosition position ts
termination_by 10 * ts.length + 11

def argumentList (endPosition position : Nat) (ts : List Token) :
    Except SyntaxFault (Result (List Expr) ts.length) :=
  match ts with
  | [] => fault position .unmatchedOpen
  | t :: ts => do
    let ⟨e, rest, h⟩ ← binary endPosition 6 (t :: ts)
    match hr : rest with
    | ⟨.comma, _, _⟩ :: rest' => do
      have : rest'.length < ts.length := by simpa [hr] using h
      let ⟨es, rest'', h'⟩ ← argumentList endPosition position rest'
      return ⟨e :: es, rest'', by simp; omega⟩
    | ⟨.closeParen, _, _⟩ :: rest' => return ⟨[e], rest', by simp [hr] at h ⊢; omega⟩
    | [] => fault position .unmatchedOpen
    | t :: _ => fault t.position (.expectedComma t.text)
termination_by 10 * ts.length + 10

def primary (endPosition : Nat) (ts : List Token) : Except SyntaxFault (Result Expr ts.length) :=
  match ts with
  | [] => fault endPosition .unexpectedEnd
  | t :: rest =>
    match literal? t.kind with
    | some v => return ⟨.lit v, rest, by simp⟩
    | none =>
      match t.kind with
      | .name =>
        match rest with
        | ⟨.openParen, _, position⟩ :: rest => do
          let ⟨args, rest', h⟩ ← arguments endPosition position rest
          return ⟨.call t.text args, rest', by simp; omega⟩
        | rest => return ⟨.path t.text [], rest, by simp⟩
      | .openParen => do
        let ⟨e, rest', h⟩ ← binary endPosition 6 rest
        match hr : rest' with
        | ⟨.closeParen, _, _⟩ :: rest'' => return ⟨e, rest'', by simp [hr] at h ⊢; omega⟩
        | _ => fault t.position .unmatchedOpen
      | .closeParen => fault t.position .unmatchedClose
      | _ => fault t.position (.unexpectedToken t.text)
termination_by 10 * ts.length

end

def expression (endPosition : Nat) (ts : List Token) : Except SyntaxFault Expr :=
  match ts with
  | [] => fault 0 .empty
  | t :: ts => do
    let ⟨e, rest, _⟩ ← binary endPosition 6 (t :: ts)
    match rest with
    | [] => return e
    | ⟨.closeParen, _, position⟩ :: _ => fault position .unmatchedClose
    | t :: _ => fault t.position (.unexpectedToken t.text)

end Parse

def parse (text : String) : Except (Unread ParseError) Expr := do
  let ts ← Token.scan text
  (Parse.expression text.length ts).mapError fun fault => .fault ⟨fault, text⟩

end Rulebook
