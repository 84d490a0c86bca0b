import Rulebook.Number
import Rulebook.Text.Word

set_option autoImplicit false

/-!
Tokens of expressions, and the ways in which a text fails to be an expression. A token keeps its own
text and its position in code points. A text that has an integer of too many digits is not read; this is
no error of the text.
-/

namespace Rulebook

inductive TokenKind where
  | int (n : Nat)
  | float (x : Double)
  | text (s : String)
  | name
  | true
  | false
  | null
  | and
  | or
  | not
  | eq
  | ne
  | ge
  | le
  | gt
  | lt
  | plus
  | minus
  | star
  | slash
  | percent
  | openParen
  | closeParen
  | openBracket
  | closeBracket
  | comma
  | dot
  deriving DecidableEq

structure Token where
  kind : TokenKind
  text : String
  position : Nat
  deriving DecidableEq

namespace TokenKind

/-- The word operators and their symbols are tokens of one kind. -/
def label : TokenKind → String
  | int _ | float _ => "NUMBER"
  | text _ => "STRING"
  | name => "IDENT"
  | true => "TRUE"
  | false => "FALSE"
  | null => "NULL"
  | and => "AND"
  | or => "OR"
  | not => "NOT"
  | eq => "=="
  | ne => "!="
  | ge => ">="
  | le => "<="
  | gt => ">"
  | lt => "<"
  | plus => "+"
  | minus => "-"
  | star => "*"
  | slash => "/"
  | percent => "%"
  | openParen => "("
  | closeParen => ")"
  | openBracket => "["
  | closeBracket => "]"
  | comma => ","
  | dot => "."

/-- Keywords are names as well where a member is named. -/
def namesMember : TokenKind → Bool
  | name | true | false | null | and | or | not => Bool.true
  | _ => Bool.false

end TokenKind

def Token.isWord (t : Token) : Bool := t.text.toList.head?.any Text.isWordStart

/-- Why a text is no expression. -/
inductive Reason where
  | empty
  | unknownOperator (c : Char)
  | invalidNumber (text : String)
  | invalidEscape (c : Char)
  | unterminatedText
  | unmatchedOpen
  | unmatchedClose
  | unmatchedBracket
  | memberName
  | arrayIndex
  | expectedComma (text : String)
  | unexpectedToken (text : String)
  | unexpectedEnd
  deriving DecidableEq, Repr

def Reason.message : Reason → String
  | .empty => "Empty expression"
  | .unknownOperator c => "Unknown operator token '" ++ String.singleton c ++ "'"
  | .invalidNumber s => "Invalid numeric literal '" ++ s ++ "'"
  | .invalidEscape c => "Invalid escape sequence '\\" ++ String.singleton c ++ "'"
  | .unterminatedText => "Unterminated string literal"
  | .unmatchedOpen => "Unmatched '('"
  | .unmatchedClose => "Unmatched ')'"
  | .unmatchedBracket => "Unmatched '['"
  | .memberName => "Expected property or method name after '.'"
  | .arrayIndex => "Array index must be a non-negative integer literal"
  | .expectedComma s => "Expected ',' or ')' but found '" ++ s ++ "'"
  | .unexpectedToken s => "Unexpected token '" ++ s ++ "'"
  | .unexpectedEnd => "Unexpected end of expression"

/-- A reason at a place. -/
structure SyntaxFault where
  position : Nat
  reason : Reason
  deriving DecidableEq, Repr

/-- A fault together with the whole text it was found in. -/
structure ParseError extends SyntaxFault where
  text : String
  deriving DecidableEq, Repr

def ParseError.message (e : ParseError) : String :=
  e.reason.message ++ " at position " ++ toString e.position

/-- Why a text is not read: it has a fault, or an integer of more than `mostDigits` digits is met first. -/
inductive Unread (ε : Type) where
  | fault (e : ε)
  | digits
  deriving DecidableEq, Repr

def Unread.map {ε ζ : Type} (f : ε → ζ) : Unread ε → Unread ζ
  | fault e => fault (f e)
  | digits => digits

end Rulebook
