set_option autoImplicit false

/-!
Sets of code points, written as closed ranges in ascending order.
-/

namespace Rulebook.Text

abbrev Ranges := List (Nat × Nat)

/-- The order of the ranges lets the search stop at the first one that starts above. -/
def Ranges.contains : Ranges → Nat → Bool
  | [], _ => false
  | (lo, hi) :: rest, n => if n < lo then false else n ≤ hi || Ranges.contains rest n

theorem Ranges.exists_of_contains {r : Ranges} {n : Nat} (h : r.contains n = true) :
    ∃ p ∈ r, p.1 ≤ n ∧ n ≤ p.2 := by
  induction r with
  | nil => simp [Ranges.contains] at h
  | cons p rest ih =>
    rw [Ranges.contains] at h
    split at h
    · simp at h
    · next hlo =>
      rcases Bool.or_eq_true_iff.1 h with h | h
      · exact ⟨p, by simp, by omega, by simpa using h⟩
      · obtain ⟨q, hq, hn⟩ := ih h
        exact ⟨q, by simp [hq], hn⟩

end Rulebook.Text
