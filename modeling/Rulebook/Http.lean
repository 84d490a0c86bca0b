import Rulebook.Http.Form
import Rulebook.Http.Route
import Rulebook.Json.Write
import Rulebook.Run.Json
import Rulebook.Service
import Rulebook.Text.Case

set_option autoImplicit false

/-!
The service over HTTP. Requests that the service refuses are answered with the reason; what is not
the request's fault is answered without one. So is a request whose answer cannot be shown, although
the service has acted on it.
-/

namespace Rulebook.Http

structure Request where
  method : String
  address : String
  body : Option String

inductive Response where
  | document (status : Nat) (body : Json)
  /-- The body of the request has faults. -/
  | invalid (faults : List FieldFault)
  | serverError
  /-- No body was wanted. -/
  | bare (status : Nat)

namespace Response

def status : Response → Nat
  | document status _ => status
  | invalid _ => 422
  | serverError => 500
  | bare status => status

/-- The text of a response, unless it reports faults. -/
def text? : Response → Option String
  | document _ body => some body.compact
  | invalid _ => none
  | serverError => some "Internal Server Error"
  | bare _ => some ""

/-- The response as it can be sent. -/
def sendable : Response → Response
  | document status body => if body.isWhole then document status body else serverError
  | invalid faults => if faults.all FieldFault.showable then invalid faults else serverError
  | r => r

def detail (status : Nat) (content : Json) : Response := document status (.obj [("detail", content)])

def refused (reason : String) : Response :=
  detail 400 (.obj [("error", .str "invalid_rule"), ("reason", .str reason)])

/-- A rule text that cannot become a rule. -/
def badRule : RuleError → Response
  | .parse part e => detail 400 (.obj [("error", .str "parse_error"),
      ("reason", .str e.reason.message), ("position", .nat e.position), ("expression", .str part)])
  | .text e => refused e.message
  | .digits | .invalid _ => serverError

def ofServiceError : ServiceError → Response
  | .rule e => badRule e
  | .noRules => refused Service.noRulesMessage
  | .store (.taken name) => detail 409 (.str (StoreError.takenMessage name))
  | .store _ => serverError
  | .notFound name | .execute (.notFound name) => detail 404 (.str (ExecuteError.notFoundMessage name))
  | .execute (.run (.rule e)) => detail 422 (.obj [("error", .str "execution_error"),
      ("ruleset", .str e.ruleset.text), ("rule_id", .str e.rule.id.text), ("condition", .str e.rule.condition),
      ("transformation", .str e.rule.transformation), ("cause", .str e.cause.message)])
  | .execute _ => serverError

def tooManyDigits : String := "An integer has too many digits"

/-- Whoever makes a ruleset is told of data that cannot be read, too. -/
def ofCreateError : ServiceError → Response
  | .rule (.invalid _) => refused "A rule is not valid"
  | .rule .digits | .store (.document (.unread .digits)) => refused tooManyDigits
  | .store (.document (.unread .malformed)) => refused "Expecting value: line 1 column 1 (char 0)"
  | .store (.document (.invalidRule _)) => refused "A stored rule is not valid"
  | e => ofServiceError e

end Response

/-- Answers with the result of an operation. -/
def respond {α : Type} (status : Nat) (render : α → Json) (failure : ServiceError → Response)
    (r : Reply α) : Response × Service :=
  (match r.result with
    | .ok a => .document status (render a)
    | .error e => failure e, r.after)

def rulesJson (rs : List Rule) : Json := .arr (rs.map Rule.toJson)

def namesJson (names : List Text) : Json := .arr (names.map .str)

/-- Acts on a form that was read from the body, unless it has faults. -/
def withForm {α : Type} (s : Service) (form : Checked α) (act : α → Response × Service) :
    Response × Service :=
  match form with
  | .ok f => act f
  | .error faults => (.invalid faults, s)

/-- What an action does. Rulesets are executed by names that are strings. -/
def perform (s : Service) (document : Option Json) : Action → Response × Service
  | .create => withForm s (form RulesetForm.ofJson document) fun f =>
      respond 201 rulesJson .ofCreateError (s.create f.name (f.rules.map RuleForm.pair))
  | .add name => withForm s (form RuleForm.ofJson document) fun f =>
      respond 200 Rule.toJson .ofServiceError (s.add name f.rule f.output)
  | .execute => withForm s (form ExecutionForm.ofJson document) fun f =>
      match f.name.toString? with
      | none => (.serverError, s)
      | some name => respond 200 Report.toJson .ofServiceError (s.execute name f.facts f.nullSafe)
  | .list => respond 200 namesJson .ofServiceError s.names
  | .get name => respond 200 rulesJson .ofServiceError (s.rules name)
  | .describe => (.bare 200, s)

/-- The document of a body, for the actions that read one. -/
def Action.document? (action : Action) (body : Option String) : Except BodyFault (Option Json) :=
  match action with
  | .create | .execute | .add _ => document body
  | .list | .get _ | .describe => .ok none

/-- Without a service the pages that describe it are still there, and bodies are still read. -/
def act (service : Option Service) (body : Option String) (action : Action) :
    Response × Option Service :=
  match action.document? body, service with
  | .error .encoding, _ | .error (.unread .digits), _ =>
    (.detail 400 (.str "There was an error parsing the body"), service)
  | .error (.unread .malformed), _ => (.invalid [⟨["body"], .malformed, true⟩], service)
  | .ok _, none => (if action = .describe then .bare 200 else .serverError, none)
  | .ok document, some s =>
    let (response, s) := perform s document action
    (response, some s)

/-- Answers a request. The service is missing if it could not be started. -/
def handle (service : Option Service) (r : Request) : Except AddressFault (Response × Option Service) := do
  let path ← path r.address
  let method := String.ofList (Text.upper r.method.toList)
  let (response, service) := match route method path with
    | .ok action => act service r.body action
    | .error .notFound => (.detail 404 (.str "Not Found"), service)
    | .error .notAllowed => (.detail 405 (.str "Method Not Allowed"), service)
  let response := response.sendable
  return (if method = "HEAD" then .bare response.status else response, service)

end Rulebook.Http
