import Rulebook.Token.Literal

set_option autoImplicit false

/-!
Scanning a text into tokens. Blank characters separate tokens; at every other place stands a number,
a text, a word or an operator, the longest one that fits. The first token that cannot be made ends it.
-/

namespace Rulebook.Token

open Text

/-- Keywords are recognised in any letter case. Only ASCII letters have the letters of a keyword as
their lower case, so the lower case of ASCII decides. -/
def wordKind (word : List Char) : TokenKind :=
  match String.ofList (word.map Char.toLower) with
  | "and" => .and
  | "or" => .or
  | "not" => .not
  | "true" => .true
  | "false" => .false
  | "null" => .null
  | _ => .name

/-- The operator that starts with a character, and how many further characters it takes. -/
def operator? : Char → List Char → Option (TokenKind × Nat)
  | '&', '&' :: _ => some (.and, 1)
  | '|', '|' :: _ => some (.or, 1)
  | '=', '=' :: _ => some (.eq, 1)
  | '!', '=' :: _ => some (.ne, 1)
  | '>', '=' :: _ => some (.ge, 1)
  | '<', '=' :: _ => some (.le, 1)
  | '>', _ => some (.gt, 0)
  | '<', _ => some (.lt, 0)
  | '!', _ => some (.not, 0)
  | '+', _ => some (.plus, 0)
  | '-', _ => some (.minus, 0)
  | '*', _ => some (.star, 0)
  | '/', _ => some (.slash, 0)
  | '%', _ => some (.percent, 0)
  | '(', _ => some (.openParen, 0)
  | ')', _ => some (.closeParen, 0)
  | '[', _ => some (.openBracket, 0)
  | ']', _ => some (.closeBracket, 0)
  | ',', _ => some (.comma, 0)
  | '.', _ => some (.dot, 0)
  | _, _ => none

/-- A number may not run into a word or a second fraction. -/
def runsOn : List Char → Bool
  | [] => false
  | c :: rest => isWordChar c || (c == '.' && rest.head?.any Char.isDigit)

def number (position : Nat) (cs : List Char) : Except (Unread SyntaxFault) (TokenKind × Nat) :=
  let l := NumberLiteral.scan cs
  let rest := cs.drop l.text.length
  if runsOn rest then
    .error (.fault ⟨position, .invalidNumber (String.ofList (l.text ++ rest.take 1))⟩)
  else if l.isLong then .error .digits
  else
    let kind :=
      if l.isWhole then .int (NumberLiteral.digitsValue l.whole)
      else .float (Double.ofDecimal false l.decimal)
    .ok (kind, l.text.length - 1)

/-- The token that starts with a character that is not blank: its kind, and how many of the
characters after the first belong to it. -/
def lexeme (position : Nat) (c : Char) (rest : List Char) :
    Except (Unread SyntaxFault) (TokenKind × Nat) :=
  if c.isDigit then number position (c :: rest)
  else if c = '"' ∨ c = '\x27' then
    match TextLiteral.scan c position (position + 1) rest with
    | .ok (s, n) => .ok (.text (String.ofList s), n)
    | .error fault => .error (.fault fault)
  else if isWordStart c then
    let tail := rest.takeWhile isWordChar
    .ok (wordKind (c :: tail), tail.length)
  else
    match operator? c rest with
    | some found => .ok found
    | none => .error (.fault ⟨position, .unknownOperator c⟩)

def scanFrom (position : Nat) (cs : List Char) : Except (Unread SyntaxFault) (List Token) :=
  match cs with
  | [] => .ok []
  | c :: rest =>
    if isBlank c then scanFrom (position + 1) rest
    else do
      let (kind, n) ← lexeme position c rest
      let tokens ← scanFrom (position + n + 1) (rest.drop n)
      return ⟨kind, String.ofList (c :: rest.take n), position⟩ :: tokens
termination_by cs.length

def scan (text : String) : Except (Unread ParseError) (List Token) :=
  (scanFrom 0 text.toList).mapError (.map fun fault => ⟨fault, text⟩)

end Rulebook.Token
