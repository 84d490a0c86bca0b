import Rulebook.Json

set_option autoImplicit false

/-!
Documents that can be shown to others. A text with a surrogate cannot be sent. Refused
data is shown with its fault only if its numbers are finite as well; members with a reserved name do
not count, because they are left out.
-/

namespace Rulebook.Json

/-- Members with these names are left out of refused data. -/
def isReserved (name : Text) : Bool := (Text.ofString "_sa").isPrefixOf name

mutual

/-- All texts and names are whole. -/
def isWhole : Json → Bool
  | str s => Text.isWhole s
  | arr items => areWhole items
  | obj members => areWholeMembers members
  | _ => true

def areWhole : List Json → Bool
  | [] => true
  | v :: vs => v.isWhole && areWhole vs

def areWholeMembers : List (Text × Json) → Bool
  | [] => true
  | (k, v) :: ms => Text.isWhole k && v.isWhole && areWholeMembers ms

end

mutual

def isShowable : Json → Bool
  | number n => n.isFinite
  | str s => Text.isWhole s
  | arr items => areShowable items
  | obj members => areShowableMembers members
  | _ => true

def areShowable : List Json → Bool
  | [] => true
  | v :: vs => v.isShowable && areShowable vs

def areShowableMembers : List (Text × Json) → Bool
  | [] => true
  | (k, v) :: ms => (isReserved k || (Text.isWhole k && v.isShowable)) && areShowableMembers ms

end

end Rulebook.Json
