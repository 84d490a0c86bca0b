import Rulebook.Run
import Rulebook.Value.Json

set_option autoImplicit false

/-!
Results of runs as JSON: the outputs in the order of writing, then the counts.
-/

namespace Rulebook

def Report.toJson (r : Report) : Json :=
  .obj [("output_variables", .obj (r.outputs.map fun (name, v) => (name, v.toJson))),
    ("stats", .obj [("total_rules", .nat r.total), ("executed_rules", .nat r.executed)])]

end Rulebook
