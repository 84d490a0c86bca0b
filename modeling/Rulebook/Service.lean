import Rulebook.Executor
import Rulebook.Rule.Build
import Rulebook.Settings
import Rulebook.Store

set_option autoImplicit false

/-!
The service that makes, shows and executes named rulesets. Rules are checked before anything is
stored. Rules that write the same output are accepted with a warning.
-/

namespace Rulebook

structure Service where
  settings : Settings
  store : Store

inductive ServiceError where
  | rule (e : RuleError)
  | noRules
  | store (e : StoreError)
  | notFound (name : String)
  | execute (e : ExecuteError)

/-- The result of an operation, its log, and the service after it. -/
structure Reply (α : Type) where
  result : Except ServiceError α
  log : List LogEntry
  after : Service

/-- The members that occur more than once, in the order of their first occurrence. -/
def repeats (xs : List String) : List String := (xs.filter fun x => 1 < xs.count x).eraseDups

namespace Service

/-- The most parsed expressions that can be kept. -/
def mostParsed : Nat := 0x7fffffffffffffff

/-- A service over the store that the settings name; nothing if more expressions are to be kept than
can be. -/
def new? (settings : Settings) (directory : Directory) (ids : Ids) : Option Service :=
  if mostParsed < settings.parseCacheSize then none
  else some ⟨settings, .atPath settings.storePath directory ids⟩

def noRulesMessage : String := "A ruleset must contain at least one rule"

/-- A warning, unless there is nothing to warn of. -/
def repeatedOutputs (name : String) (outputs : List String) : List LogEntry :=
  if outputs.isEmpty then []
  else [⟨.warning, "duplicate_output_variables",
    [("ruleset", .text name), ("output_variables", LogEntry.texts outputs)]⟩]

/-- An answer of the store that nothing is logged for. -/
def query {α β : Type} (s : Service) (ask : Store → Except StoreError α × Store)
    (answer : α → Except ServiceError β) : Reply β :=
  let (result, store) := ask s.store
  ⟨result.mapError .store >>= answer, [], { s with store }⟩

def names (s : Service) : Reply (List Text) := s.query Store.names .ok

/-- The rules of a ruleset. One without rules counts as missing. -/
def rules (s : Service) (name : String) : Reply (List Rule) :=
  s.query (·.get name) fun rs => if rs.isEmpty then .error (.notFound name) else .ok rs

/-- Whether a ruleset has any rule. -/
def has (s : Service) (name : String) : Reply Bool := s.query (·.get name) fun rs => .ok !rs.isEmpty

def count (s : Service) (name : String) : Reply Nat := s.query (·.get name) fun rs => .ok rs.length

/-- The service after `n` identifiers were used. -/
def skipIds (s : Service) (n : Nat) : Service :=
  { s with store := { s.store with ids := s.store.ids.advance n } }

/-- Makes a ruleset of pairs of rule text and output variable. -/
def create (s : Service) (name : String) (pairs : List (Text × Text)) : Reply (List Rule) :=
  match Rule.buildAll s.store.ids name pairs with
  | .error e => ⟨.error (.rule e), [], s⟩
  | .ok [] => ⟨.error .noRules, [], s⟩
  | .ok rules =>
    let s := s.skipIds rules.length
    let warnings := repeatedOutputs name (repeats (rules.map Rule.output))
    let (result, store) := s.store.create name rules
    let created : LogEntry :=
      ⟨.info, "ruleset_created", [("ruleset", .text name), ("rule_count", LogEntry.count rules.length)]⟩
    ⟨result.mapError .store, warnings ++ (if result.isOk then [created] else []), { s with store }⟩

/-- Adds a rule at the end of a ruleset, which is made if there is none. -/
def add (s : Service) (name : String) (text output : Text) : Reply Rule :=
  match Rule.build (s.store.ids.nth 0) name text output with
  | .error e => ⟨.error (.rule e), [], s⟩
  | .ok rule =>
    let s := s.skipIds 1
    match s.store.get name with
    | (.error e, store) => ⟨.error (.store e), [], { s with store }⟩
    | (.ok before, store) =>
      let warnings :=
        repeatedOutputs name
          (if (before.map Rule.output).contains rule.output then [rule.output] else [])
      let (result, store) := store.append name rule
      let added : LogEntry :=
        ⟨.info, "rule_added", [("ruleset", .text name), ("rule_id", .text rule.id)]⟩
      ⟨result.mapError .store, warnings ++ (if result.isOk then [added] else []), { s with store }⟩

/-- Executes a ruleset on facts. The attitude to nulls is that of the settings unless it is given. -/
def execute (s : Service) (name : String) (facts : List (Key × Value)) (nullSafe : Option Bool) :
    Reply Report :=
  let found := s.rules name
  match found.result with
  | .error e => ⟨.error e, found.log, found.after⟩
  | .ok rules =>
    let x : Executor := ⟨rules, name, nullSafe.getD s.settings.nullSafe⟩
    let (result, log) := x.run facts none
    ⟨result.mapError .execute, found.log ++ log, found.after⟩

end Service

end Rulebook
