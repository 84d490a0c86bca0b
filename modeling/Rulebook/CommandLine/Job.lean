import Rulebook.CommandLine.Options
import Rulebook.Log
import Rulebook.Text.Case

set_option autoImplicit false

/-!
Jobs: what the command line asks to be executed.
-/

namespace Rulebook

/-- Why a name stands for no level: it stands for nothing, or for something else about logs. -/
inductive LevelError where
  | unknown
  | format
  | table
  deriving DecidableEq, Repr

/-- The least level that is logged, by a name in any case. Two levels have a second name, and there is
a name for logging everything. -/
def Level.ofOption (s : String) : Except LevelError Level :=
  match String.ofList (Text.upper s.toList) with
  | "NOTSET" | "DEBUG" => .ok .debug
  | "INFO" => .ok .info
  | "WARN" | "WARNING" => .ok .warning
  | "ERROR" => .ok .error
  | "FATAL" | "CRITICAL" => .ok .critical
  | "BASIC_FORMAT" => .error .format
  | "_STYLES" => .error .table
  | _ => .error .unknown

namespace CommandLine

/-- The texts are missing where an option has no value. -/
structure Job where
  ruleset : Option String
  facts : Option String
  /-- Nulls are errors; otherwise the settings decide. -/
  strict : Bool
  /-- The file for the result; none if empty. -/
  output : String
  logLevel : Option String

namespace Job

def options : List OptionSpec :=
  [⟨"--ruleset-file", true, true, none⟩, ⟨"--facts", true, true, none⟩,
    ⟨"--strict", false, false, none⟩, ⟨"--output", true, false, none⟩,
    ⟨"--log-level", true, false, none⟩]

def usage : String :=
  "usage: --ruleset-file FILE --facts FILE [--strict] [--output FILE] [--log-level LEVEL]"

def ofArgs (args : List String) : Except Refusal Job := do
  let found ← parseOptions options args
  let text (name fallback : String) : Option String := (found.lookup name).getD (some fallback)
  return ⟨text "--ruleset-file" "", text "--facts" "", (found.lookup "--strict").isSome,
    (text "--output" "").getD "", text "--log-level" "warning"⟩

def level (job : Job) : Except LevelError Level :=
  match job.logLevel with
  | some name => Level.ofOption name
  | none => .error .unknown

end Job

end CommandLine

end Rulebook
