import Rulebook.Text
import Rulebook.Text.Ranges

set_option autoImplicit false

/-!
Blank characters: the white space of Unicode and the four separators below the space. The byte order
mark and the zero-width space are not blank.
-/

namespace Rulebook.Text

def blankRanges : Ranges :=
  [(0x9, 0xD), (0x1C, 0x20), (0x85, 0x85), (0xA0, 0xA0), (0x1680, 0x1680), (0x2000, 0x200A),
    (0x2028, 0x2029), (0x202F, 0x202F), (0x205F, 0x205F), (0x3000, 0x3000)]

def isBlank (c : Char) : Bool := blankRanges.contains c.toNat

/-- Takes blank elements off at both ends. -/
def trimBy {α : Type} (blank : α → Bool) (xs : List α) : List α :=
  ((xs.dropWhile blank).reverse.dropWhile blank).reverse

def trim (cs : List Char) : List Char := trimBy isBlank cs

def trimmed (s : Text) : Text := trimBy (·.isA isBlank) s

def allBlank (s : Text) : Bool := s.all (·.isA isBlank)

end Rulebook.Text
