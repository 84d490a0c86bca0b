import Rulebook.Text.Blank
import Rulebook.Text.Letter
import Rulebook.Text.Numeral

set_option autoImplicit false

/-!
Words: a letter or underscore, then letters, numerals and underscores. No blank character belongs to
a word.
-/

namespace Rulebook.Text

def isWordStart (c : Char) : Bool := isLetter c || c == '_'

def isWordChar (c : Char) : Bool := isLetter c || isNumeral c || c == '_'

theorem isWordChar_of_isWordStart {c : Char} (h : isWordStart c = true) : isWordChar c = true := by
  grind [isWordStart, isWordChar]

theorem isWordChar_of_isDigit {c : Char} (h : c.isDigit = true) : isWordChar c = true := by
  have hbounds : 48 ≤ c.toNat ∧ c.toNat ≤ 57 := by
    simpa [UInt32.le_iff_toNat_le] using Bool.and_eq_true_iff.mp h
  have hnumeral : isNumeral c = true := by
    unfold isNumeral numeralRanges
    rw [Ranges.contains, if_neg (by omega)]
    simp [hbounds.2]
  simp [isWordChar, hnumeral]

/-- The blank code points, one by one. -/
def blankPoints : List Nat :=
  [9, 10, 11, 12, 13, 28, 29, 30, 31, 32, 0x85, 0xA0, 0x1680, 0x2000, 0x2001, 0x2002, 0x2003, 0x2004,
    0x2005, 0x2006, 0x2007, 0x2008, 0x2009, 0x200A, 0x2028, 0x2029, 0x202F, 0x205F, 0x3000]

theorem toNat_mem_blankPoints {c : Char} (h : isBlank c = true) : c.toNat ∈ blankPoints := by
  obtain ⟨p, hp, hlo, hhi⟩ := Ranges.exists_of_contains h
  simp only [blankRanges, List.mem_cons, List.not_mem_nil, or_false] at hp
  simp only [blankPoints, List.mem_cons, List.not_mem_nil, or_false]
  rcases hp with h | h | h | h | h | h | h | h | h | h <;> subst h <;> simp only at hlo hhi <;> omega

theorem blankPoints_not_word : ∀ n ∈ blankPoints,
    (letterRanges.contains n || numeralRanges.contains n || n == 0x5F) = false := by
  decide +kernel

theorem isWordChar_eq_false_of_isBlank {c : Char} (h : isBlank c = true) :
    isWordChar c = false := by
  have hn := blankPoints_not_word _ (toNat_mem_blankPoints h)
  simp only [Bool.or_eq_false_iff] at hn
  have hu : (c == '_') = false := by
    apply beq_false_of_ne
    rintro rfl
    simp at hn
  simp only [isWordChar, isLetter, isNumeral, hn.1.1, hn.1.2, hu, Bool.or_false]

end Rulebook.Text
