import Rulebook.Text.Numeral

set_option autoImplicit false

/-!
Command-line options with two dashes, each with a value or without. A value is the next argument or
follows an equals sign; a name may be cut short as long as one option fits. Nothing but options is
accepted, and a bare `--` with all that follows it is no option. After an equals sign a bare `--` is no
value.
-/

namespace Rulebook.CommandLine

structure OptionSpec where
  name : String
  takesValue : Bool
  required : Bool
  /-- The values that are accepted; any if there is no list. -/
  choices : Option (List String)

/-- Why no options come out: they were wrong, or help was asked for. -/
inductive Refusal where
  | usage
  | help
  deriving DecidableEq, Repr

def Refusal.status : Refusal → Nat
  | usage => 2
  | help => 0

/-- An argument by its look alone. A call for help is spoiled by text that is attached to it. -/
inductive Argument where
  | help (spoiled : Bool)
  | option (spec : OptionSpec) (attached : Option String)
  | unknown
  | plain (text : String)

/-- Splits at the first equals sign. -/
def splitEquals (cs : List Char) : List Char × Option String :=
  match cs.span (· != '=') with
  | (name, _ :: value) => (name, some (String.ofList value))
  | (name, []) => (name, none)

def isDecimal (c : Char) : Bool := (Text.decimalValue? c).isSome

/-- A line break at the end is not counted. -/
def isNegativeNumber (cs : List Char) : Bool :=
  match if cs.getLast? = some '\n' then cs.dropLast else cs with
  | '-' :: rest =>
    match rest.span isDecimal with
    | (whole, []) => !whole.isEmpty
    | (_, '.' :: places) => !places.isEmpty && places.all isDecimal
    | _ => false
  | _ => false

/-- A text that names no option: a value after all if it is a negative number or has a space. -/
def classifyOther (text : String) : Argument :=
  if isNegativeNumber text.toList || text.toList.contains ' ' then .plain text else .unknown

/-- All options, and the one for help, by full name. -/
def named (specs : List OptionSpec) : List (String × (Option String → Argument)) :=
  ("--help", fun attached => .help attached.isSome) :: specs.map fun s => (s.name, .option s)

/-- What follows `-h` spoils the call for help unless it is more of the same letter, perhaps after an
equals sign. -/
def isSpoiled : List Char → Bool
  | '=' :: more => more.isEmpty || more.any (· != 'h')
  | more => more.any (· != 'h')

def classify (specs : List OptionSpec) (text : String) : Except Refusal Argument :=
  let cs := text.toList
  let options := named specs
  match cs with
  | '-' :: c :: more =>
    let (name, attached) := splitEquals cs
    match options.lookup text, options.lookup (String.ofList name) with
    | some option, _ => .ok (option none)
    | none, some option => .ok (option attached)
    | none, none =>
      if c == '-' then
        match options.filter fun o => name.isPrefixOf o.1.toList with
        | [] => .ok (classifyOther text)
        | [(_, option)] => .ok (option attached)
        | _ => .error .usage
      else if c == 'h' then .ok (.help (isSpoiled more))
      else .ok (classifyOther text)
  | _ => .ok (.plain text)

def classifyAll (specs : List OptionSpec) : List String → Except Refusal (List Argument)
  | [] => .ok []
  | "--" :: rest => .ok (.unknown :: rest.map .plain)
  | text :: rest => do
    let a ← classify specs text
    return a :: (← classifyAll specs rest)

/-- Options found so far with their values, if any, and whether something was there that is no
option. -/
structure Found where
  values : List (String × Option String)
  stray : Bool

def Found.add (found : Found) (spec : OptionSpec) (value : Option String) : Except Refusal Found :=
  if value.all fun v => spec.choices.all (·.contains v) then
    .ok { found with values := (spec.name, value) :: found.values }
  else .error .usage

def attachedValue (text : String) : Option String := if text = "--" then none else some text

/-- Goes through the arguments in order; the first refusal counts. -/
def collect (found : Found) : List Argument → Except Refusal Found
  | [] => .ok found
  | .help spoiled :: _ => .error (if spoiled then .usage else .help)
  | .option spec (some value) :: rest =>
    if spec.takesValue then do collect (← found.add spec (attachedValue value)) rest
    else .error .usage
  | .option spec none :: rest =>
    if spec.takesValue then
      match rest with
      | .plain value :: rest' => do collect (← found.add spec (some value)) rest'
      | _ => .error .usage
    else do collect (← found.add spec none) rest
  | _ :: rest => collect { found with stray := true } rest

/-- The options by name, the last value of each first. -/
def parseOptions (specs : List OptionSpec) (args : List String) :
    Except Refusal (List (String × Option String)) := do
  let found ← collect ⟨[], false⟩ (← classifyAll specs args)
  if found.stray then throw .usage
  if specs.any fun s => s.required && (found.values.lookup s.name).isNone then throw .usage
  return found.values

end Rulebook.CommandLine
