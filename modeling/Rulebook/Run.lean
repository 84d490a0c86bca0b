import Rulebook.Eval
import Rulebook.Expr.Parse
import Rulebook.Log
import Rulebook.Rule
import Rulebook.Value.Normal

set_option autoImplicit false

/-!
One run of an ordered list of rules. The rules go in order; a true condition writes the rule's output,
which later rules can read. The first rule with an error ends the run. A null-safe run forgives the use
of null: such a condition counts as false, and such a transformation writes null. The events of a run
say all that happens in it. They are taken to be written without a failure; in a host where writing a log
entry can fail, such a failure would end the run behind the event.
-/

namespace Rulebook

/-- Why a rule failed. -/
inductive Cause where
  | parse (e : ParseError)
  | eval (e : EvalError)
  deriving DecidableEq, Repr

def Cause.message : Cause → String
  | .parse e => e.message
  | .eval e => e.message

/-- What stops a run: the failure of a rule, or a crash that no rule answers for. -/
inductive Halt where
  | cause (c : Cause)
  | crash (c : Crash)
  deriving DecidableEq, Repr

inductive RunEvent where
  | started (total : Nat)
  | ruleStarted (rule : Rule) (available : List String)
  | nullInCondition (rule : Rule) (error : EvalError)
  | conditionEvaluated (rule : Rule) (result : Bool)
  | nullInTransformation (rule : Rule) (error : EvalError)
  | fired (rule : Rule) (value : Value)
  | failed (rule : Rule) (cause : Cause)
  | completed (executed : Nat) (outputs : List String)

/-- The result of an expression in a run, with the error that was forgiven, if any. -/
structure Attempt (α : Type) where
  forgiven : Option EvalError
  result : Except Halt α

/-- Parses and evaluates a text. If nulls are forgiven, `fallback` stands in for the result. No rule answers
for an integer of too many digits in its text. -/
def attempt {α : Type} (nullSafe : Bool) (fallback : α) (text : String) (run : Expr → Outcome α) :
    Attempt α :=
  match parse text with
  | .error (.fault e) => ⟨none, .error (.cause (.parse e))⟩
  | .error .digits => ⟨none, .error (.crash .digits)⟩
  | .ok e =>
    match run e with
    | .ok a => ⟨none, .ok a⟩
    | .error (.crash c) => ⟨none, .error (.crash c)⟩
    | .error (.error e) =>
      if nullSafe && e.isNullAccess then ⟨some e, .ok fallback⟩
      else ⟨none, .error (.cause (.eval e))⟩

namespace Rule

def attemptCondition (nullSafe : Bool) (c : Context) (r : Rule) : Attempt Bool :=
  attempt nullSafe false r.condition (evalCondition .builtin c)

def attemptTransformation (nullSafe : Bool) (c : Context) (r : Rule) : Attempt Value :=
  attempt nullSafe .null r.transformation (eval .builtin c)

/-- What a rule does in a context: nothing, or a value for its output. The transformation is not even
parsed unless the condition holds. -/
def effect (nullSafe : Bool) (c : Context) (r : Rule) : Except Halt (Option Value) := do
  if ← (r.attemptCondition nullSafe c).result then
    return some (← (r.attemptTransformation nullSafe c).result)
  else return none

/-- The events of a rule's transformation. -/
def transformationEvents (nullSafe : Bool) (c : Context) (r : Rule) : List RunEvent :=
  let a := r.attemptTransformation nullSafe c
  a.forgiven.toList.map (.nullInTransformation r) ++
    match a.result with
    | .ok v => [.fired r v]
    | .error _ => []

/-- The events of a rule, its failure not included. -/
def events (nullSafe : Bool) (c : Context) (r : Rule) : List RunEvent :=
  let a := r.attemptCondition nullSafe c
  .ruleStarted r (Entries.keys c.derived) :: a.forgiven.toList.map (.nullInCondition r) ++
    match a.result with
    | .ok true => .conditionEvaluated r true :: r.transformationEvents nullSafe c
    | .ok false => [.conditionEvaluated r false]
    | .error _ => []

end Rule

/-- How far a run has come: its outputs, and how many rules fired. -/
structure Progress where
  derived : Bindings
  executed : Nat

namespace Progress

def start : Progress := ⟨[], 0⟩

def fire (p : Progress) (r : Rule) (v : Value) : Progress :=
  ⟨Entries.put p.derived r.output v, p.executed + 1⟩

def context (p : Progress) (facts : Bindings) : Context := ⟨facts, p.derived⟩

/-- The progress after a rule that did something or nothing. -/
def after (p : Progress) (r : Rule) : Option Value → Progress
  | some v => p.fire r v
  | none => p

end Progress

/-- The outcome of a list of rules: all events, the progress that was made, and where it stopped. -/
structure Passage where
  events : List RunEvent
  progress : Progress
  stopped : Option (Rule × Halt)

def passRules (nullSafe : Bool) (facts : Bindings) (p : Progress) : List Rule → Passage
  | [] => ⟨[], p, none⟩
  | r :: rs =>
    let c := p.context facts
    let events := r.events nullSafe c
    match r.effect nullSafe c with
    | .error h => ⟨events, p, some (r, h)⟩
    | .ok done =>
      let rest := passRules nullSafe facts (p.after r done) rs
      { rest with events := events ++ rest.events }

inductive Status where
  | pending | running | completed | failed
  deriving DecidableEq, Repr

def Status.name : Status → String
  | .pending => "PENDING"
  | .running => "RUNNING"
  | .completed => "COMPLETED"
  | .failed => "FAILED"

structure Report where
  ruleset : String
  outputs : Bindings
  total : Nat
  executed : Nat

/-- The failure of a rule in a run. -/
structure ExecutionError where
  rule : Rule
  cause : Cause
  ruleset : Label

def ExecutionError.message (e : ExecutionError) : Text :=
  "Error executing rule " ++ e.rule.id.text ++ ": condition='" ++ e.rule.condition ++
    "', transformation='" ++ e.rule.transformation ++ "': " ++ e.cause.message

inductive RunError where
  | already (id : String) (status : Status)
  | rule (e : ExecutionError)
  | crash (c : Crash)

structure Run where
  id : String
  rules : List Rule
  ruleset : String
  nullSafe : Bool
  facts : Bindings
  progress : Progress
  status : Status

namespace Run

/-- A run over facts that are closed values under text keys; others are refused. -/
def new (id : String) (rules : List Rule) (ruleset : String) (nullSafe : Bool)
    (facts : List (Key × Value)) : Except ValueFault Run := do
  let facts ← Value.normalizeEntries facts
  return ⟨id, rules, ruleset, nullSafe, .ofEntries facts, .start, .pending⟩

/-- The ruleset that a failure is reported for: the run's own, or else the rule's. -/
def rulesetOf (run : Run) (r : Rule) : Label := if run.ruleset = "" then r.ruleset else run.ruleset

def report (run : Run) : Report :=
  ⟨run.ruleset, run.progress.derived, run.rules.length, run.progress.executed⟩

/-- Executes a run once. After a crash it stays in the running state. -/
def execute (run : Run) : Except RunError Report × Run × List RunEvent :=
  if run.status = .pending then
    let passage := passRules run.nullSafe run.facts run.progress run.rules
    let events := .started run.rules.length :: passage.events
    let run := { run with progress := passage.progress }
    match passage.stopped with
    | none =>
      let run := { run with status := .completed }
      (.ok run.report, run,
        events ++ [.completed run.progress.executed (Entries.keys run.progress.derived)])
    | some (r, .cause cause) =>
      (.error (.rule ⟨r, cause, run.rulesetOf r⟩), { run with status := .failed },
        events ++ [.failed r cause])
    | some (_, .crash c) => (.error (.crash c), { run with status := .running }, events)
  else (.error (.already run.id run.status), run, [])

end Run

namespace RunEvent

def level : RunEvent → Level
  | ruleStarted _ _ => .debug
  | nullInCondition _ _ | nullInTransformation _ _ => .warning
  | failed _ _ => .error
  | _ => .info

def name : RunEvent → String
  | started _ => "ruleset_run_started"
  | ruleStarted _ _ => "rule_started"
  | nullInCondition _ _ => "null_property_access_in_condition"
  | conditionEvaluated _ _ => "rule_condition_evaluated"
  | nullInTransformation _ _ => "null_property_access_in_transformation"
  | fired _ _ => "rule_fired"
  | failed _ _ => "rule_failed"
  | completed _ _ => "ruleset_run_completed"

def fields : RunEvent → List (String × Value)
  | started total => [("total_rules", LogEntry.count total)]
  | ruleStarted r available =>
    [("rule_id", .text r.id), ("condition", .text r.condition),
      ("available_outputs", LogEntry.texts available)]
  | nullInCondition r e =>
    [("rule_id", .text r.id), ("condition", .text r.condition), ("error", .text e.detail),
      ("outcome", .text "treated as false")]
  | conditionEvaluated r result => [("rule_id", .text r.id), ("result", .bool result)]
  | nullInTransformation r e =>
    [("rule_id", .text r.id), ("transformation", .text r.transformation), ("error", .text e.detail),
      ("outcome", .text "returning null")]
  | fired r v => [("rule_id", .text r.id), ("output_variable", .text r.output), ("value", v)]
  | failed r cause =>
    [("rule_id", .text r.id), ("condition", .text r.condition),
      ("transformation", .text r.transformation), ("error", .text cause.message)]
  | completed executed outputs =>
    [("executed_rules", LogEntry.count executed), ("outputs", LogEntry.texts outputs)]

/-- Every entry of a run names its ruleset and its attitude to nulls. -/
def entry (ruleset : String) (nullSafe : Bool) (e : RunEvent) : LogEntry :=
  ⟨e.level, e.name, ("ruleset", .text ruleset) :: ("null_safe", .bool nullSafe) :: e.fields⟩

end RunEvent

end Rulebook
