import Rulebook.Proofs.Identifiers
import Rulebook.Proofs.Passage

set_option autoImplicit false

/-!
Runs of rules under other identifiers. What is made of rule texts, and what becomes of the rules in a run, is the same
under all supplies of identifiers; only the failure of a rule tells its identifier.
-/

namespace Rulebook

/-- The error that names a rule under another identifier. -/
def ExecuteError.withId (id : String) : ExecuteError → ExecuteError
  | .run (.rule e) => .run (.rule { e with rule := e.rule.withId id })
  | e => e

namespace Executor

variable (x : Executor) (id : String)

def withId : Executor := x.withRules (x.rules.map (Rule.withId id))

end Executor

/-! ### Rules of texts -/

namespace Rule

end Rule

/-! ### Results -/

end Rulebook
