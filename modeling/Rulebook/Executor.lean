import Rulebook.Run

set_option autoImplicit false

/-!
Executors: a fixed list of rules that is run any number of times, each time from the start. Without
any rule there is nothing to run, and the ruleset counts as missing.
-/

namespace Rulebook

inductive ExecuteError where
  | notFound (ruleset : String)
  | data (fault : ValueFault)
  | run (e : RunError)

def ExecuteError.notFoundMessage (ruleset : String) : String := "Ruleset not found: " ++ ruleset

structure Executor where
  rules : List Rule
  ruleset : String
  nullSafe : Bool

namespace Executor

/-- The result of a run and its log. Each run is started once, so its identifier is never seen. -/
def run (x : Executor) (facts : List (Key × Value)) (nullSafe : Option Bool) :
    Except ExecuteError Report × List LogEntry :=
  if x.rules.isEmpty then (.error (.notFound x.ruleset), [])
  else
    match Run.new "" x.rules x.ruleset (nullSafe.getD x.nullSafe) facts with
    | .error f => (.error (.data f), [])
    | .ok run =>
      let (result, _, events) := run.execute
      (result.mapError .run, events.map (·.entry run.ruleset run.nullSafe))

/-- The trees of all conditions and transformations, in order, or why the first bad text is not read. -/
def validate (x : Executor) : Except (Unread ParseError) (List Expr) :=
  (x.rules.flatMap fun r => [r.condition, r.transformation]).mapM parse

end Executor

end Rulebook
