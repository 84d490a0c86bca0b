import Rulebook.Value

set_option autoImplicit false

/-!
Access by path: a key step into a map, an index step into a list or tuple. A step that leads nowhere
gives null, and null stays null.
-/

namespace Rulebook

inductive Segment where
  | key (name : String)
  | index (n : Int)
  /-- A step that is neither; it leads nowhere. -/
  | other
  deriving DecidableEq, Repr

def Segment.text : Segment → String
  | .key name => "." ++ name
  | .index n => "[" ++ toString n ++ "]"
  | .other => ""

namespace Value

def item (items : List Value) (n : Int) : Value :=
  if n < 0 then .null else (items[n.toNat]?).getD .null

def step : Value → Segment → Value
  | map entries, .key name => (entries.lookup (.text name)).getD .null
  | list items, .index n | tuple items, .index n => item items n
  | _, _ => .null

def traverse (v : Value) (segments : List Segment) : Value := segments.foldl step v

@[simp] theorem traverse_nil (v : Value) : v.traverse [] = v := rfl

@[simp] theorem traverse_cons (v : Value) (s : Segment) (ss : List Segment) :
    v.traverse (s :: ss) = (v.step s).traverse ss := rfl

theorem traverse_append (v : Value) (ss ts : List Segment) :
    v.traverse (ss ++ ts) = (v.traverse ss).traverse ts := List.foldl_append

end Value

end Rulebook
