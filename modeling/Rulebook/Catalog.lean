import Rulebook.CommandLine.Options
import Rulebook.Eval.Method
import Rulebook.Eval.Registry
import Rulebook.Json.Write
import Rulebook.Yaml

set_option autoImplicit false

/-!
The catalog of everything that expressions can call: the functions sorted by name, then the methods
sorted by name, as JSON or YAML.
-/

namespace Rulebook.Catalog

inductive EntryKind where
  | function
  | method
  deriving DecidableEq, Repr

def EntryKind.name : EntryKind → String
  | .function => "function"
  | .method => "method"

structure Entry where
  kind : EntryKind
  name : String
  arity : String
  description : String
  aliases : List String
  receivers : List String

def ofFunction (f : Function) : Entry :=
  ⟨.function, f.name, f.arity.text, f.description, f.aliases, []⟩

def ofMethod (m : Method) : Entry :=
  ⟨.method, m.name, m.arity.text, m.description, [], m.receiverNames⟩

def entries (functions : Registry) : List Entry :=
  functions.sorted.map ofFunction ++ Method.sorted.map ofMethod

def Entry.toJson (e : Entry) : Json :=
  .obj [("aliases", .strs e.aliases), ("arity", .str e.arity), ("description", .str e.description),
    ("kind", .str e.kind.name), ("name", .str e.name), ("receivers", .strs e.receivers)]

/-- Nothing for a format that is not supported. -/
def render? (es : List Entry) : String → Option String
  | "json" => some (Json.indented (.arr (es.map Entry.toJson)))
  | "yaml" => some (Yaml.records (es.map Entry.toJson))
  | _ => none

def unsupportedMessage (format : String) : String := "Unsupported catalog format: " ++ format

def options : List CommandLine.OptionSpec :=
  [⟨"--format", true, false, some ["json", "yaml"]⟩, ⟨"--kind", true, false, some ["function", "method"]⟩]

def usage : String := "usage: catalog [--format json|yaml] [--kind function|method]"

inductive ListingError where
  | refusal (r : CommandLine.Refusal)
  | format (shown : String)
  deriving DecidableEq, Repr

/-- The listing that a command line asks for. No entry is of a kind without value, and a format without
value is not supported. -/
def listing (args : List String) : Except ListingError String := do
  let found ← (CommandLine.parseOptions options args).mapError .refusal
  let es := (entries .builtin).filter fun e =>
    (found.lookup "--kind").all fun kind => kind == some e.kind.name
  let format := ((found.lookup "--format").getD (some "json")).getD "[]"
  match render? es format with
  | some text => return text ++ "\n"
  | none => throw (.format format)

end Rulebook.Catalog
