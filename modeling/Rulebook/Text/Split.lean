set_option autoImplicit false

/-!
Cutting a text at every place where a separator stands, and joining the parts again. There is always one
part more than there are separators.
-/

namespace Rulebook.Text

def split (separator : Char) : List Char → List (List Char)
  | [] => [[]]
  | c :: cs =>
    match split separator cs with
    | [] => []
    | part :: parts => if c = separator then [] :: part :: parts else (c :: part) :: parts

def join (separator : Char) : List (List Char) → List Char
  | [] => []
  | [part] => part
  | part :: parts => part ++ separator :: join separator parts

theorem split_ne_nil (separator : Char) (cs : List Char) : split separator cs ≠ [] := by
  induction cs with
  | nil => simp [split]
  | cons c cs ih =>
    obtain ⟨part, parts, h⟩ := List.exists_cons_of_ne_nil ih
    simp only [split, h]
    split <;> simp

end Rulebook.Text
