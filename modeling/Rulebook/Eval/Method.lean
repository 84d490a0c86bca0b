import Rulebook.Eval.Function

set_option autoImplicit false

/-!
The methods of values. Which one is called, on what kind of value and with how many arguments is
checked in this order. Null has no methods at all.
-/

namespace Rulebook

structure Method where
  name : String
  receivers : List Kind
  least : Nat
  most : Nat
  description : String
  run : Value → List Value → Outcome Value

namespace Method

def arity (m : Method) : Arity := ⟨m.least, some m.most⟩

def textArg (method : String) : Value → Outcome Text
  | .text s => .ok s
  | v => do .mismatch (.methodText method (← v.kindOf))

/-- How many characters, items or entries a value has. -/
def size : Value → Nat
  | .text s => s.length
  | .list items | .tuple items => items.length
  | .map entries => entries.length
  | _ => 0

def textOf : Value → Text
  | .text s => s
  | _ => []

def textMethod (f : Text → Text) (receiver : Value) (_ : List Value) : Outcome Value :=
  .ok (.text (f (textOf receiver)))

def textTest (name : String) (test : Text → Text → Bool) (receiver : Value) (args : List Value) :
    Outcome Value := do
  let t ← textArg name (Function.nth args 0)
  return .bool (test (textOf receiver) t)

def substring (receiver : Value) (args : List Value) : Outcome Value := do
  let start ← Function.wholeArg "substring" 1 (Function.nth args 0)
  let stop ←
    if 1 < args.length then some <$> Function.wholeArg "substring" 2 (Function.nth args 1)
    else pure none
  return .text (Function.sliceText (textOf receiver) start stop)

def builtin : List Method :=
  [⟨"length", [.string], 0, 0, "Character count.", fun r _ => .ok (.int (size r))⟩,
    ⟨"size", [.list, .map], 0, 0, "Element count of a list or map.", fun r _ => .ok (.int (size r))⟩,
    ⟨"toUpperCase", [.string], 0, 0, "Uppercase copy.", textMethod Text.toUpper⟩,
    ⟨"toLowerCase", [.string], 0, 0, "Lowercase copy.", textMethod Text.toLower⟩,
    ⟨"substring", [.string], 1, 2, "Slice; out-of-range bounds return the string unchanged.",
      substring⟩,
    ⟨"toString", [.boolean, .number, .string, .list, .map], 0, 0, "Display string.",
      fun r _ => .text <$> .ofDisplay r.display⟩,
    ⟨"trim", [.string], 0, 0, "Strips surrounding whitespace.", textMethod Text.trimmed⟩,
    ⟨"contains", [.string], 1, 1, "Substring test.",
      textTest "contains" fun s t => Text.occursIn t s⟩,
    ⟨"startsWith", [.string], 1, 1, "Prefix test.",
      textTest "startsWith" fun s t => t.isPrefixOf s⟩,
    ⟨"endsWith", [.string], 1, 1, "Suffix test.", textTest "endsWith" fun s t => t.isSuffixOf s⟩,
    ⟨"isEmpty", [.string, .list, .map], 0, 0, "True when length/size is 0.",
      fun r _ => .ok (.bool (size r == 0))⟩]

def find? (name : String) : Option Method := builtin.find? (·.name == name)

/-- The methods sorted by name. -/
def sorted : List Method := builtin.mergeSort fun m n => decide (m.name ≤ n.name)

def receiverNames (m : Method) : List String :=
  (m.receivers.map Kind.name).mergeSort fun a b => decide (a ≤ b)

def call (m : Method) (receiver : Value) (args : List Value) : Outcome Value := do
  let kind ← receiver.kindOf
  if !m.receivers.contains kind then .mismatch (.receiver m.name kind)
  else if !m.arity.admits args.length then
    .fail (.arity (m.name ++ "()") m.arity.text args.length)
  else m.run receiver args

def invoke (receiver : Value) (name : String) (args : List Value) : Outcome Value :=
  if receiver.isNull then .fail (.nullAccess (name ++ "()"))
  else
    match find? name with
    | none => .fail (.unknownMethod name)
    | some m => m.call receiver args

end Method

end Rulebook
