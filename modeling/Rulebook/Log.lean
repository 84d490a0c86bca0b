import Rulebook.Value

set_option autoImplicit false

/-!
Log entries: a level, the name of an event, and named fields in the order of writing.
-/

namespace Rulebook

inductive Level where
  | debug | info | warning | error | critical
  deriving DecidableEq, Repr

namespace Level

def name : Level → String
  | debug => "debug"
  | info => "info"
  | warning => "warning"
  | error => "error"
  | critical => "critical"

def rank : Level → Nat
  | debug => 0
  | info => 1
  | warning => 2
  | error => 3
  | critical => 4

def all : List Level := [debug, info, warning, error, critical]

def ofName? (s : String) : Option Level := all.find? fun l => l.name == s

end Level

structure LogEntry where
  level : Level
  event : String
  fields : List (String × Value)

namespace LogEntry

def texts (ss : List String) : Value := .list (ss.map fun (s : String) => .text s)

def count (n : Nat) : Value := .int n

/-- The entries of a level and above. -/
def atLeast (level : Level) (log : List LogEntry) : List LogEntry :=
  log.filter fun e => level.rank ≤ e.level.rank

end LogEntry

end Rulebook
