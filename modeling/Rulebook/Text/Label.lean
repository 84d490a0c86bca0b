import Rulebook.Text

set_option autoImplicit false

/-!
Labels: texts in which no two halves of a surrogate pair stand side by side. Escapes of such halves would be
read as one character, so labels are the texts that documents keep as they are. Every string is a label.
-/

namespace Rulebook

namespace CodePoint

/-- Two halves that make up a character if both are escaped. -/
def Joins (p q : CodePoint) : Prop := isHighHalf p.number = true ∧ isLowHalf q.number = true

instance (p q : CodePoint) : Decidable (p.Joins q) := inferInstanceAs (Decidable (_ ∧ _))

theorem toNat_bounds (c : Char) : c.toNat < 0xD800 ∨ 0xE000 ≤ c.toNat ∧ c.toNat < 0x110000 := by
  obtain h | ⟨h, h'⟩ := c.valid
  · exact .inl h
  · exact .inr ⟨h, h'⟩

theorem isHighHalf_toNat (c : Char) : isHighHalf c.toNat = false := by
  have := toNat_bounds c
  simp only [isHighHalf, Bool.and_eq_false_iff, decide_eq_false_iff_not]
  omega

theorem not_char_joins (c : Char) (q : CodePoint) : ¬(char c).Joins q := by
  rintro ⟨hhigh, -⟩
  rw [number, isHighHalf_toNat] at hhigh
  cases hhigh

end CodePoint

namespace Text

/-- No escape in the text would be joined to the next one. -/
def Unpaired : Text → Prop
  | p :: q :: s => ¬p.Joins q ∧ Unpaired (q :: s)
  | _ => True

instance decidableUnpaired : (s : Text) → Decidable s.Unpaired
  | _ :: q :: s =>
    have := decidableUnpaired (q :: s)
    inferInstanceAs (Decidable (_ ∧ _))
  | [] | [_] => isTrue trivial

theorem unpaired_cons {p : CodePoint} {s : Text} (hp : ∀ q ∈ s.head?, ¬p.Joins q) (hs : s.Unpaired) :
    Unpaired (p :: s) := by
  cases s with
  | nil => trivial
  | cons q s => exact ⟨hp q rfl, hs⟩

theorem Unpaired.head {p : CodePoint} {s : Text} (h : Unpaired (p :: s)) : ∀ q ∈ s.head?, ¬p.Joins q := by
  cases s with
  | nil => simp
  | cons q s =>
    intro q' hq'
    cases hq'
    exact h.1

theorem Unpaired.tail {p : CodePoint} {s : Text} (h : Unpaired (p :: s)) : Unpaired s := by
  cases s with
  | nil => trivial
  | cons q s => exact h.2

theorem unpaired_ofChars (cs : List Char) : Unpaired (ofChars cs) := by
  induction cs with
  | nil => trivial
  | cons c cs ih => exact unpaired_cons (fun q _ => CodePoint.not_char_joins c q) ih

end Text

structure Label where
  text : Text
  unpaired : text.Unpaired
  deriving DecidableEq

namespace Label

def ofString (s : String) : Label := ⟨s, Text.unpaired_ofChars s.toList⟩

instance : Coe String Label := ⟨ofString⟩

instance : Coe Label Text := ⟨text⟩

end Label

end Rulebook
