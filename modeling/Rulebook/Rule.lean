import Rulebook.Ids
import Rulebook.Validation

set_option autoImplicit false

/-!
Rules and rulesets as they are stored. Condition, transformation and output variable are strings that
are never empty; identifier and ruleset are labels, which need not be strings.
-/

namespace Rulebook

structure Rule where
  id : Label
  ruleset : Label
  condition : String
  transformation : String
  output : String
  condition_ne : condition ≠ ""
  transformation_ne : transformation ≠ ""
  output_ne : output ≠ ""
  deriving DecidableEq

namespace Rule

def ofChecked (id ruleset : Checked Label) (condition transformation output :
    Checked { s : String // s ≠ "" }) : Checked Rule :=
  (id.both (ruleset.both (condition.both (transformation.both output)))).map
    fun (id, ruleset, c, t, o) => ⟨id, ruleset, c.1, t.1, o.1, c.2, t.2, o.2⟩

def ofParts (id ruleset : Label) (condition transformation output : Text) : Checked Rule :=
  ofChecked (.ok id) (.ok ruleset) ((Checked.nonEmpty condition).under "condition")
    ((Checked.nonEmpty transformation).under "transformation")
    ((Checked.nonEmpty output).under "output_variable")

/-- A rule without an identifier gets the one that is given; members of other names are ignored. -/
def ofJson (freshId : String) : Json → Checked Rule
  | .obj ms =>
    ofChecked (.optional ms "rule_id" ↑freshId .label) (.optional ms "ruleset" ↑"" .label)
      (.required ms "condition" .nonEmptyText) (.required ms "transformation" .nonEmptyText)
      (.required ms "output_variable" .nonEmptyText)
  | v => .refuse .recordType v

def toJson (r : Rule) : Json :=
  .obj [("rule_id", .str r.id.text), ("ruleset", .str r.ruleset.text), ("condition", .str r.condition),
    ("transformation", .str r.transformation), ("output_variable", .str r.output)]

end Rule

structure Ruleset where
  name : String
  rules : List Rule
  name_ne : name ≠ ""

namespace Ruleset

def rulesOfJson (ids : Ids) : Json → Checked (List Rule)
  | .arr items => .all 0 (items.zipIdx.map fun (v, i) => Rule.ofJson (ids.nth i) v)
  | v => .refuse .listType v

def ofJson (ids : Ids) : Json → Checked Ruleset
  | .obj ms =>
    ((Checked.required ms "name" .nonEmptyText).both
      (.optional ms "rules" [] (rulesOfJson ids))).map fun (name, rules) => ⟨name.1, rules, name.2⟩
  | v => .refuse .recordType v

def outputs (r : Ruleset) : List String := r.rules.map Rule.output

def toJson (r : Ruleset) : Json :=
  .obj [("name", .str r.name), ("rules", .arr (r.rules.map Rule.toJson))]

end Ruleset

end Rulebook
