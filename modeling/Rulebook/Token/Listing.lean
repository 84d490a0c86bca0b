import Rulebook.Token.Scan
import Rulebook.Value

set_option autoImplicit false

/-!
The listing of a text: its tokens in their order, and behind them the end of the text, which is listed
like a token without characters.
-/

namespace Rulebook.Token

inductive Listed where
  | token (t : Token)
  | textEnd (position : Nat)
  deriving DecidableEq

namespace Listed

def label : Listed → String
  | token t => t.kind.label
  | textEnd _ => "EOF"

def text : Listed → String
  | token t => t.text
  | textEnd _ => ""

def position : Listed → Nat
  | token t => t.position
  | textEnd p => p

/-- A literal stands for its value and a word for itself. Operators and the end stand for nothing. -/
def value : Listed → Value
  | token t =>
    match t.kind with
    | .int n => .int n
    | .float x => .number (.float x)
    | .text s => .text s
    | _ => if t.isWord then .text t.text else .null
  | textEnd _ => .null

end Listed

def listing (text : String) : Except (Unread ParseError) (List Listed) :=
  (scan text).map fun ts => ts.map .token ++ [.textEnd text.length]

end Rulebook.Token
