import Rulebook.Expr.Parse
import Rulebook.Ids
import Rulebook.Rule
import Rulebook.Rule.Text

set_option autoImplicit false

/-!
Rules from rule texts. Both parts have to parse, so a built rule never fails for its form.
-/

namespace Rulebook

inductive RuleError where
  | text (e : RuleTextError)
  /-- A part of the rule text is no expression; the error speaks of the part as it is shown. -/
  | parse (part : Text) (e : ParseError)
  /-- A part has an integer of too many digits. -/
  | digits
  | invalid (faults : List FieldFault)
  deriving DecidableEq, Repr

namespace Rule

def parsePart (part : Text) : Except RuleError Expr :=
  match parse part.shown with
  | .ok e => .ok e
  | .error (.fault fault) => .error (.parse part fault)
  | .error .digits => .error .digits

def build (id ruleset : Label) (text output : Text) : Except RuleError Rule := do
  let parts ← (RuleText.ofText (some text)).mapError .text
  let _ ← parsePart parts.condition
  let _ ← parsePart parts.transformation
  (ofParts id ruleset parts.condition parts.transformation output).mapError .invalid

/-- The rules of pairs of rule text and output variable, or the error of the first bad pair. -/
def buildAll (ids : Ids) (ruleset : String) : List (Text × Text) → Except RuleError (List Rule)
  | [] => .ok []
  | (text, output) :: pairs => do
    let rule ← build (ids.nth 0) ruleset text output
    return rule :: (← buildAll (ids.advance 1) ruleset pairs)

end Rule

end Rulebook
