import Rulebook.Text.Word

set_option autoImplicit false

/-!
Rule texts, `condition THEN transformation`. The keyword counts only as a whole word, and it has to
stand in the text exactly once, also counting quoted texts. Both parts are trimmed.
-/

namespace Rulebook

structure RuleText where
  condition : Text
  transformation : Text
  deriving DecidableEq, Repr

inductive RuleTextError where
  | blank
  | notOnce
  | noCondition
  | noTransformation
  deriving DecidableEq, Repr

def RuleTextError.message : RuleTextError → String
  | .blank => "Rule cannot be empty"
  | .notOnce => "Rule must contain the 'THEN' keyword exactly once"
  | .noCondition => "Rule condition cannot be empty"
  | .noTransformation => "Rule transformation cannot be empty"

namespace RuleText

open Text

def isWordPart (p : CodePoint) : Bool := p.isA isWordChar

def startsWord (s : Text) : Bool := s.head?.any isWordPart

def keyword : Text := "THEN"

/-- What stands before and after the first keyword; `inWord` tells whether the character before the
text belongs to a word. -/
def cut? (inWord : Bool) : Text → Option (Text × Text)
  | [] => none
  | p :: rest =>
    if !inWord && keyword.isPrefixOf (p :: rest) && !startsWord (rest.drop 3) then
      some ([], rest.drop 3)
    else (cut? (isWordPart p) rest).map fun (before, after) => (p :: before, after)

def split (text : Text) : Except RuleTextError RuleText :=
  if allBlank text then .error .blank
  else
    match cut? false text with
    | none => .error .notOnce
    | some (before, after) =>
      if (cut? true after).isSome then .error .notOnce
      else if allBlank before then .error .noCondition
      else if allBlank after then .error .noTransformation
      else .ok ⟨trimmed before, trimmed after⟩

/-- A missing text counts as blank. -/
def ofText (text : Option Text) : Except RuleTextError RuleText := split (text.getD [])

end RuleText

end Rulebook
