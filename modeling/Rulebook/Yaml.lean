import Rulebook.Json

set_option autoImplicit false

/-!
YAML text of lists of records, in block style. A record's fields are texts or lists of texts. A text
that would read as an integer is put in single quotes; all others are written plain, which is right
for texts without a colon or number sign beside a space and without an indicator at the start.
-/

namespace Rulebook.Yaml

def scalar (s : String) : String :=
  if !s.isEmpty && s.toList.all Char.isDigit then "'" ++ s ++ "'" else s

def textOf : Json → String
  | .str s => s.shown
  | _ => ""

/-- The lines of a field; items of a list are not indented below its name. -/
def fieldLines (name : String) : Json → List String
  | .arr [] => [name ++ ": []"]
  | .arr items => (name ++ ":") :: items.map fun v => "- " ++ scalar (textOf v)
  | v => [name ++ ": " ++ scalar (textOf v)]

/-- The first line of a record is marked as an item, the others are indented to it. -/
def recordLines : Json → List String
  | .obj members =>
    match members.flatMap fun (name, v) => fieldLines name.shown v with
    | [] => []
    | first :: rest => ("- " ++ first) :: rest.map ("  " ++ ·)
  | _ => []

def records (rs : List Json) : String :=
  if rs.isEmpty then "[]\n" else String.join ((rs.flatMap recordLines).map (· ++ "\n"))

end Rulebook.Yaml
