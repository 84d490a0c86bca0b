import Rulebook.Number
import Rulebook.Text.Quoted

set_option autoImplicit false

/-!
Values: the data that facts are made of and expressions compute. The closed values are built from
null, booleans, numbers, texts, lists and maps with text keys. Data from outside may also hold
tuples, keys that are no text, and foreign objects that have no kind at all; `Value.normalize`
(module `Value.Normal`) leaves only closed values.
-/

namespace Rulebook

inductive Kind where
  | null | boolean | number | string | list | map
  deriving DecidableEq, Repr

def Kind.name : Kind → String
  | .null => "null"
  | .boolean => "boolean"
  | .number => "number"
  | .string => "string"
  | .list => "list"
  | .map => "map"

/-- Keys of maps. Only texts are keys of closed values. -/
inductive Key where
  | text (s : Text)
  | null
  | bool (b : Bool)
  | number (n : Number)
  /-- The result of an undefined operation. It equals no number, but it is found under itself; labels
  tell such keys apart. -/
  | nan (label : Nat)
  | tuple (items : List Key)
  | foreign (typeName : String)
  deriving Inhabited

inductive Value where
  | null
  | bool (b : Bool)
  | number (n : Number)
  | text (s : Text)
  | list (items : List Value)
  | tuple (items : List Value)
  | map (entries : List (Key × Value))
  | foreign (typeName : String)
  deriving Inhabited

/-- Data that is no value of the language. -/
inductive ValueFault where
  | unsupported (typeName : String)
  | keyNotText (typeName : String)
  deriving DecidableEq, Repr

def ValueFault.message : ValueFault → String
  | .unsupported t => "Unsupported value type: " ++ t
  | .keyNotText t => "Map keys must be strings, got " ++ t

namespace Value

def int (n : Int) : Value := .number (.int n)

def isNull : Value → Bool
  | null => true
  | _ => false

/-- Tuples are of the same kind as lists. -/
def kind : Value → Except ValueFault Kind
  | null => .ok .null
  | bool _ => .ok .boolean
  | number _ => .ok .number
  | text _ => .ok .string
  | list _ | tuple _ => .ok .list
  | map _ => .ok .map
  | foreign t => .error (.unsupported t)

end Value

namespace Key

def typeName : Key → String
  | text _ => "str"
  | null => "NoneType"
  | bool _ => "bool"
  | number (.int _) => "int"
  | number (.float _) | nan _ => "float"
  | tuple _ => "tuple"
  | foreign t => t

/-- A boolean key is the same key as the number one or zero, and the empty complex number is zero. -/
def asNumber? : Key → Option Number
  | bool b => some (.int (if b then 1 else 0))
  | number n => some n
  | foreign "complex" => some (.int 0)
  | _ => none

mutual

/-- Two keys stand for the same entry. -/
def same : Key → Key → Bool
  | text s, text t => s == t
  | null, null => true
  | nan a, nan b => a == b
  | tuple xs, tuple ys => sameAll xs ys
  | foreign t, foreign u => t == u
  | k, l =>
    match k.asNumber?, l.asNumber? with
    | some a, some b => a.eq b
    | _, _ => false

def sameAll : List Key → List Key → Bool
  | [], [] => true
  | k :: ks, l :: ls => k.same l && sameAll ks ls
  | _, _ => false

end

instance : BEq Key := ⟨same⟩

@[simp] theorem text_beq (s t : Text) : (text s == text t) = (s == t) := by
  simp [BEq.beq, same]

def foreignText : String → String
  | "bytes" => "b" ++ "\x27\x27"
  | "complex" => "0j"
  | t => t ++ "()"

mutual

/-- The text of a key inside a tuple, where texts are quoted. -/
def inner : Key → String
  | text s => Text.quoted s
  | null => "None"
  | bool b => if b then "True" else "False"
  | number n => n.toText
  | nan _ => "nan"
  | tuple items => "(" ++ innerAll items ++ (if items.length = 1 then ",)" else ")")
  | foreign t => foreignText t

def innerAll : List Key → String
  | [] => ""
  | [k] => k.inner
  | k :: ks => k.inner ++ ", " ++ innerAll ks

end

def display : Key → Text
  | text s => s
  | k => k.inner

mutual

/-- The key has a text. -/
def isWritable : Key → Bool
  | number n => n.isWritable
  | tuple items => areWritable items
  | _ => true

def areWritable : List Key → Bool
  | [] => true
  | k :: ks => k.isWritable && areWritable ks

end

end Key

end Rulebook
