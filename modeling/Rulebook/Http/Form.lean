import Rulebook.Json.Read
import Rulebook.Text.Encoding
import Rulebook.Validation
import Rulebook.Value.Json

set_option autoImplicit false

/-!
The bodies of requests. All faults of a body are reported, with paths that start at the body.
-/

namespace Rulebook.Http

structure RuleForm where
  rule : Text
  output : String

structure RulesetForm where
  name : String
  rules : List RuleForm

structure ExecutionForm where
  name : Text
  data : List (Text × Json)
  nullSafe : Option Bool

namespace RuleForm

def ofJson : Json → Checked RuleForm
  | .obj ms =>
    ((Checked.required ms "rule" .text).both (.required ms "output_variable" .nonEmptyText)).map
      fun (rule, output) => ⟨rule, output.1⟩
  | v => .refuse .attributesType v

def pair (f : RuleForm) : Text × Text := (f.rule, f.output)

end RuleForm

namespace RulesetForm

def rulesOfJson : Json → Checked (List RuleForm)
  | .arr items => .all 0 (items.map RuleForm.ofJson)
  | v => .refuse .listType v

def ofJson : Json → Checked RulesetForm
  | .obj ms =>
    ((Checked.required ms "name" .nonEmptyText).both (.optional ms "rules" [] rulesOfJson)).map
      fun (name, rules) => ⟨name.1, rules⟩
  | v => .refuse .attributesType v

end RulesetForm

namespace ExecutionForm

def dataOfJson : Json → Checked (List (Text × Json))
  | .obj ms => .ok ms
  | v => .refuse .mapType v

def trueWords : List String := ["1", "t", "y", "on", "yes", "true"]

def falseWords : List String := ["0", "f", "n", "no", "off", "false"]

/-- The least whole number that is looked at for a boolean; the greatest is the
greatest signed number of 64 bits. -/
def leastWhole : Number → Int
  | .int _ => -0x8000000000000000
  | .float _ => -0x7fffffffffffffff

/-- A boolean may also be written as a word, in any case, or as the number one or zero. -/
def nullSafeOfJson : Json → Checked (Option Bool)
  | .null => .ok none
  | .bool b => .ok (some b)
  | .str s =>
    if trueWords.contains s.shown.toLower then .ok (some true)
    else if falseWords.contains s.shown.toLower then .ok (some false)
    else .refuse .boolReading (.str s)
  | .number n =>
    match n.toInt? with
    | some m =>
      if m = 0 then .ok (some false)
      else if m = 1 then .ok (some true)
      else if leastWhole n ≤ m ∧ m < 0x8000000000000000 then
        .refuse .boolReading (.number n)
      else .refuse .boolType (.number n)
    | none => .refuse .boolType (.number n)
  | v => .refuse .boolType v

def ofJson : Json → Checked ExecutionForm
  | .obj ms =>
    ((Checked.required ms "ruleset_name" .text).both
      ((Checked.optional ms "input_data" [] dataOfJson).both
        (.optional ms "null_safe" none nullSafeOfJson))).map
          fun (name, data, nullSafe) => ⟨name, data, nullSafe⟩
  | v => .refuse .attributesType v

def facts (f : ExecutionForm) : List (Key × Value) :=
  f.data.map fun (name, v) => (.text name, v.toValue)

end ExecutionForm

/-- Why a body holds no document. -/
inductive BodyFault where
  /-- Its bytes are no text. -/
  | encoding
  | unread (fault : Json.ReadFault)
  deriving DecidableEq, Repr

/-- The document of a body, if there is one. -/
def document (body : Option String) : Except BodyFault (Option Json) :=
  match body.getD "" with
  | "" => .ok none
  | text =>
    match Text.reread text with
    | none => .error .encoding
    | some text =>
      match Json.read text with
      | .ok v => .ok (some v)
      | .error fault => .error (.unread fault)

def form {α : Type} (read : Json → Checked α) (document : Option Json) : Checked α :=
  (match document with
    | some v => read v
    | none => .refuse .missing .null).under "body"

end Rulebook.Http
