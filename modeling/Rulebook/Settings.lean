import Rulebook.Entries
import Rulebook.Log
import Rulebook.Text.Blank
import Rulebook.Text.Case
import Rulebook.Text.Integer
import Rulebook.Text.Quoted

set_option autoImplicit false

/-!
Settings from environment variables. A variable that is missing or blank leaves the default. The
variables are read in a fixed order and the first bad one is reported with its trimmed text.
-/

namespace Rulebook

structure Settings where
  nullSafe : Bool
  /-- How many parsed expressions are kept at most; parsing gives the same trees in any case. -/
  parseCacheSize : Nat
  logLevel : Level
  /-- The document that rulesets are stored in; none if empty. -/
  storePath : String
  deriving DecidableEq, Repr

def Settings.default : Settings := ⟨true, 512, .info, ""⟩

inductive SettingsError where
  | notBoolean (name text : String)
  | notInteger (name text : String)
  | negative (name : String) (value : Int)
  | notLevel (name text : String)
  deriving DecidableEq, Repr

namespace SettingsError

def message : SettingsError → String
  | notBoolean name s => name ++ " must be a boolean (true/false), got " ++ Text.quoted s
  | notInteger name s => name ++ " must be an integer, got " ++ Text.quoted s
  | negative name n => name ++ " must be >= 0, got " ++ toString n
  | notLevel name s =>
    name ++ " must be one of " ++ "/".intercalate (Level.all.map Level.name) ++ ", got " ++ Text.quoted s

end SettingsError

namespace Settings

abbrev Environment := Entries String String

/-- The variables that are looked at, in order. -/
def variableNames : List String :=
  ["RULES_NULL_SAFE", "RULES_PARSE_CACHE_SIZE", "RULES_LOG_LEVEL", "RULES_STORE_PATH"]

def trimmed (env : Environment) (name : String) : List Char :=
  Text.trim ((Entries.get? env name).getD "").toList

def lowered (env : Environment) (name : String) : String := String.ofList (Text.lower (trimmed env name))

def readBool (env : Environment) (name : String) (fallback : Bool) : Except SettingsError Bool :=
  let s := lowered env name
  if s.isEmpty then .ok fallback
  else if ["1", "true", "yes", "on"].contains s then .ok true
  else if ["0", "false", "no", "off"].contains s then .ok false
  else .error (.notBoolean name s)

def readCount (env : Environment) (name : String) (fallback : Nat) : Except SettingsError Nat :=
  let cs := trimmed env name
  if cs.isEmpty then .ok fallback
  else
    match Text.readInt? cs with
    | none => .error (.notInteger name (String.ofList cs))
    | some n => if n < 0 then .error (.negative name n) else .ok n.toNat

def readLevel (env : Environment) (name : String) (fallback : Level) : Except SettingsError Level :=
  let s := lowered env name
  if s.isEmpty then .ok fallback
  else
    match Level.ofName? s with
    | some l => .ok l
    | none => .error (.notLevel name s)

def load (env : Environment) : Except SettingsError Settings := do
  let nullSafe ← readBool env "RULES_NULL_SAFE" Settings.default.nullSafe
  let parseCacheSize ← readCount env "RULES_PARSE_CACHE_SIZE" Settings.default.parseCacheSize
  let logLevel ← readLevel env "RULES_LOG_LEVEL" Settings.default.logLevel
  return ⟨nullSafe, parseCacheSize, logLevel, String.ofList (trimmed env "RULES_STORE_PATH")⟩

end Settings

end Rulebook
