import Rulebook.Proofs.Answers
import Rulebook.Proofs.Descriptions
import Rulebook.Proofs.Renaming
import Rulebook.Proofs.Requests

set_option autoImplicit false

/-!
The two ways to the service. A job on the command line ends in the same way as two requests, one that makes the ruleset
and one that executes it: with a rule that is refused, with a rule that fails, or with the same outputs.
-/

namespace Rulebook

open Text

/-! ### A new ruleset and its execution -/

namespace Service

variable {s : Service} {rs : Rulesets} {name : String} {pairs : List (Text × Text)} {rules : List Rule}

end Service

/-! ### The command line -/

namespace CommandLine

/-- The end of a program whose ruleset was made. -/
def Execution.ended (d : Directory) (output : String) : Except ExecuteError Report → Execution
  | .error e => ofServiceError d (.execute e)
  | .ok report => finished d output report

variable (job : Job) (sources : Sources) {d : Directory} {ids : Ids} {s : Service}

end CommandLine

/-! ### Requests -/

namespace Http

/-- The answer to an execution of a ruleset. -/
def Response.ended : Except ExecuteError Report → Response
  | .error e => ofServiceError (.execute e)
  | .ok report => document 200 report.toJson

section

variable {create execute : Request} {f : RulesetForm} {data : List (Text × Json)} {strict : Bool} {s : Service}
  {rules : List Rule}

end

end Http

/-! ### Both -/

open CommandLine Http

/-- The program gives a text as its result: it prints it, or writes it to the output file. -/
def CommandLine.Execution.Gives (x : Execution) (d : Directory) (output text : String) : Prop :=
  if output = "" then x.stdout = text else x.directory = (d.write (Path.normal output) text).2

/-- A run of the program ends as the answers to a new ruleset and to its execution say. -/
structure Agrees (d : Directory) (output : String) (x : Execution) (created executed : Response) : Prop where
  refused : x.status = .ok 2 ↔ created.status = 400
  failed : x.status = .ok 1 ↔ created.status = 201 ∧ executed.status = 422
  completed : x.status = .ok 0 ↔ created.status = 201 ∧ executed.status = 200
  /-- A failure is told with the same condition, the same transformation and the same cause. -/
  failure : x.status = .ok 1 → ∃ id id' ruleset condition transformation cause : String,
    x.stderr = (Json.obj [("error", .str "execution_error"), ("rule_id", .str id), ("condition", .str condition),
      ("transformation", .str transformation), ("cause", .str cause)]).indented ++ "\n" ∧
    executed = .detail 422 (.obj [("error", .str "execution_error"), ("ruleset", .str ruleset),
      ("rule_id", .str id'), ("condition", .str condition), ("transformation", .str transformation),
      ("cause", .str cause)])
  /-- The outputs and counts that are given, sorted by key, are also answered. -/
  outputs : x.status = .ok 0 → ∃ outputs stats : Json,
    x.Gives d output ((Json.obj [("output_variables", outputs), ("stats", stats)]).sorted.indented ++ "\n") ∧
    executed = .document 200 (.obj [("output_variables", outputs), ("stats", stats)])

section

variable {x : Execution} {created executed : Response} {d : Directory} {output : String}

end

/-- Both requests are answered, and a run of the program ends as the answers say. -/
def Meets (d : Directory) (output : String) (x : Execution) (app : Option Service) (create execute : Request) :
    Prop :=
  ∃ created app₁ executed app₂, handle app create = .ok (created, app₁) ∧
    handle app₁ execute = .ok (executed, app₂) ∧ Agrees d output x created executed

section

variable {job : Job} {level : Level} {env : Settings.Environment} {settings : Settings} {f : RulesetForm}
  {data : List (Text × Json)} {create execute : Request} {d d' : Directory} {ids ids' : Ids} {s s' : Service}

end

/-- The execution of the greetings on no facts. -/
def Http.greeting : Request where
  method := "POST"
  address := "/api/rulesets/execute"
  body := some "\x7b\"ruleset_name\": \"greetings\", \"input_data\": \x7b\x7d\x7d"

/-- What is read from the request that makes the greetings. -/
def Http.greetings : RulesetForm := ⟨"greetings", [⟨"true THEN 1", "greeting"⟩]⟩

namespace CommandLine

end CommandLine

end Rulebook
