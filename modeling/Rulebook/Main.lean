import Rulebook.Catalog
import Rulebook.CommandLine

set_option autoImplicit false

/-!
The program. With `catalog` as its first argument it lists what expressions can call; otherwise it
executes a ruleset file.
-/

namespace Rulebook

def readEnvironment : IO Settings.Environment :=
  Settings.variableNames.filterMapM fun name => do return (← IO.getEnv name).map (name, ·)

/-- The files among some paths that can be read. -/
def readFiles (paths : List String) : IO (Entries String String) :=
  paths.filterMapM fun (path : String) => do
    try return some ((Path.location path).text, ← IO.FS.readFile path)
    catch _ => return none

/-- Identifiers that count up from a random number. -/
def randomIds : IO Ids := do
  let bytes ← IO.getRandomBytes 16
  let start := bytes.toList.foldl (fun n b => n * 256 + b.toNat) 0
  return ⟨fun n => String.ofList (Text.hexDigits 32 (start + n)), 0⟩

def logLine (e : LogEntry) : String :=
  let about : List (String × Value) := [("event", .text e.event), ("level", .text e.level.name)]
  Json.compact (.obj ((e.fields ++ about).map fun (name, v) => (name, v.toJson)))

def refuse (usage : String) (r : CommandLine.Refusal) : IO UInt32 := do
  IO.eprintln usage
  return r.status.toUInt32

def listCatalog (args : List String) : IO UInt32 := do
  match Catalog.listing args with
  | .error (.refusal r) => refuse Catalog.usage r
  | .error (.format shown) =>
    IO.eprintln (Catalog.unsupportedMessage shown)
    return 1
  | .ok text =>
    IO.print text
    return 0

def executeJob (job : CommandLine.Job) : IO UInt32 := do
  let files ← readFiles (job.ruleset.toList ++ job.facts.toList)
  let directory : Directory := ⟨files, [Path.parent job.output], "", false⟩
  let x := job.run (← readEnvironment) directory (← randomIds)
  for entry in x.log do
    IO.eprintln (logLine entry)
  IO.print x.stdout
  IO.eprint x.stderr
  match x.status with
  | .error failure =>
    IO.eprintln failure.message
    return 1
  | .ok status =>
    if status = 0 ∧ job.output ≠ "" then
      if let .ok text := x.directory.read (Path.normal job.output) then IO.FS.writeFile job.output text
    return status.toUInt32

end Rulebook

def main (args : List String) : IO UInt32 :=
  match args with
  | "catalog" :: rest => Rulebook.listCatalog rest
  | _ =>
    match Rulebook.CommandLine.Job.ofArgs args with
    | .error r => Rulebook.refuse Rulebook.CommandLine.Job.usage r
    | .ok job => Rulebook.executeJob job
