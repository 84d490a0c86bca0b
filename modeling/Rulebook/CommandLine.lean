import Rulebook.CommandLine.Job
import Rulebook.CommandLine.Source
import Rulebook.Json.Write
import Rulebook.Run.Json
import Rulebook.Service

set_option autoImplicit false

/-!
The command line: executes a ruleset file on a facts file and prints the outputs. Rules that are
malformed and rules that fail end the program with a status of their own; all other errors stop it.
-/

namespace Rulebook.CommandLine

/-- What stops the program. -/
inductive Failure where
  | refusal (r : Refusal)
  | logLevel (e : LevelError)
  /-- The ruleset or the facts have no path. -/
  | noPath
  | source (e : SourceError)
  | settings (e : SettingsError)
  | cacheSize
  | service (e : ServiceError)
  /-- An integer of the result has too many digits. -/
  | digits
  | output (fault : FileFault)

def faultMessage : FileFault → String
  | .missing => "No such file"
  | .notFolder => "Not a folder"
  | .tooLong => "The path is too long"
  | .notPath => "Not a path"
  | .folder => "Is a folder"
  | .diskFull => "No space left"

/-- A line for the reader of the program's output. -/
def Failure.message : Failure → String
  | .refusal _ => Job.usage
  | .logLevel _ => "Unknown log level"
  | .noPath => Job.usage
  | .source (.file fault) | .output fault => faultMessage fault
  | .source e => e.message?.getD "Not a JSON document"
  | .settings e => e.message
  | .cacheSize => "The parse cache is too large"
  | .service .noRules => Service.noRulesMessage
  | .service _ => "The ruleset cannot be executed"
  | .digits => "An integer has too many digits"

/-- What can be seen of a run of the program. -/
structure Execution where
  status : Except Failure Nat
  stdout : String
  stderr : String
  log : List LogEntry
  directory : Directory

def resultText (r : Report) : String := r.toJson.sorted.indented ++ "\n"

def failureJson (e : ExecutionError) : Json :=
  .obj [("error", .str "execution_error"), ("rule_id", .str e.rule.id.text),
    ("condition", .str e.rule.condition), ("transformation", .str e.rule.transformation),
    ("cause", .str e.cause.message)]

namespace Execution

def stopped (directory : Directory) (f : Failure) : Execution := ⟨.error f, "", "", [], directory⟩

/-- The end of a program that prints nothing but an error. -/
def complained (directory : Directory) (status : Nat) (text : String) : Execution :=
  ⟨.ok status, "", text ++ "\n", [], directory⟩

/-- The end of a program whose rules went through: the result goes to the output file, if any. -/
def finished (directory : Directory) (output : String) (r : Report) : Execution :=
  if !r.toJson.isWritable then stopped directory .digits
  else if output = "" then ⟨.ok 0, resultText r, "", [], directory⟩
  else
    match directory.write (Path.normal output) (resultText r) with
    | (.ok _, directory) => ⟨.ok 0, "", "", [], directory⟩
    | (.error fault, directory) => stopped directory (.output fault)

def ofServiceError (directory : Directory) : ServiceError → Execution
  | .rule (.text e) => complained directory 2 ("Invalid rule: " ++ e.message)
  | .rule (.parse _ e) => complained directory 2 ("Invalid rule: " ++ e.message)
  | .execute (.run (.rule e)) => complained directory 1 (failureJson e).indented
  | e => stopped directory (.service e)

end Execution

structure Sources where
  ruleset : RulesetSource
  facts : List (Key × Value)
  settings : Settings

/-- All that a job needs to know. The ruleset file comes first, the settings come last. -/
def Job.sources (job : Job) (env : Settings.Environment) (directory : Directory) :
    Except Failure Sources := do
  let some rulesetPath := job.ruleset | throw .noPath
  let some factsPath := job.facts | throw .noPath
  let ruleset ← (RulesetSource.read directory rulesetPath).mapError .source
  let facts ← (readFacts directory factsPath).mapError .source
  let settings ← (Settings.load env).mapError .settings
  return ⟨ruleset, facts, settings⟩

/-- Makes the ruleset in memory and executes it. -/
def Job.execute (job : Job) (sources : Sources) (directory : Directory) (ids : Ids) : Execution :=
  match Service.new? { sources.settings with storePath := "" } directory ids with
  | none => .stopped directory .cacheSize
  | some service =>
    let created := service.create sources.ruleset.name sources.ruleset.pairs
    match created.result with
    | .error e => { Execution.ofServiceError directory e with log := created.log }
    | .ok _ =>
      let nullSafe := if job.strict then some false else none
      let executed := created.after.execute sources.ruleset.name sources.facts nullSafe
      let execution := match executed.result with
        | .error e => Execution.ofServiceError directory e
        | .ok report => .finished directory job.output report
      { execution with log := created.log ++ executed.log }

def Job.run (job : Job) (env : Settings.Environment) (directory : Directory) (ids : Ids) : Execution :=
  match job.level with
  | .error e => .stopped directory (.logLevel e)
  | .ok level =>
    match job.sources env directory with
    | .error f => .stopped directory f
    | .ok sources =>
      let execution := job.execute sources directory ids
      { execution with log := LogEntry.atLeast level execution.log }

def run (args : List String) (env : Settings.Environment) (directory : Directory) (ids : Ids) :
    Execution :=
  match Job.ofArgs args with
  | .error r => .stopped directory (.refusal r)
  | .ok job => job.run env directory ids

end Rulebook.CommandLine
