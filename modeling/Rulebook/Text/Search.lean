set_option autoImplicit false

/-!
Parts of texts: occurrence inside, and slices that leave a text alone when they do not lie within it.
-/

namespace Rulebook.Text

variable {α : Type}

/-- The second list occurs somewhere in the first. -/
def occursIn [BEq α] (part : List α) : List α → Bool
  | [] => part.isEmpty
  | c :: cs => part.isPrefixOf (c :: cs) || occursIn part cs

/-- What stands from `start` up to `stop`, or the whole text if these bounds are not in order
within it. -/
def slice (cs : List α) (start stop : Int) : List α :=
  if start < 0 ∨ (cs.length : Int) < stop ∨ stop < start then cs
  else (cs.take stop.toNat).drop start.toNat

end Rulebook.Text
