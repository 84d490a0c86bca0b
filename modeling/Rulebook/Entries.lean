set_option autoImplicit false

/-!
Entries under keys, in the order in which the keys were first put. Putting a key again replaces
its value and keeps its place.
-/

namespace Rulebook

abbrev Entries (κ α : Type) := List (κ × α)

namespace Entries

variable {κ α : Type} [DecidableEq κ]

def get? (es : Entries κ α) (key : κ) : Option α := es.lookup key

def keys (es : Entries κ α) : List κ := es.map (·.1)

def put : Entries κ α → κ → α → Entries κ α
  | [], key, value => [(key, value)]
  | (k, v) :: es, key, value => if k = key then (k, value) :: es else (k, v) :: put es key value

def erase (es : Entries κ α) (key : κ) : Entries κ α := es.filter fun e => e.1 ≠ key

/-- The first entries overridden and extended by the second. -/
def override (es fs : Entries κ α) : Entries κ α := fs.foldl (fun acc f => acc.put f.1 f.2) es

@[simp] theorem get?_nil (key : κ) : get? ([] : Entries κ α) key = none := rfl

theorem get?_cons (k : κ) (v : α) (es : Entries κ α) (key : κ) :
    get? ((k, v) :: es) key = if k = key then some v else get? es key := by
  simp only [get?, List.lookup_cons]
  by_cases h : k = key
  · simp [h]
  · simp [h, beq_false_of_ne (Ne.symm h)]

theorem get?_put (es : Entries κ α) (k key : κ) (v : α) :
    (es.put k v).get? key = if k = key then some v else es.get? key := by
  induction es with
  | nil => simp [put, get?_cons]
  | cons e es ih =>
    obtain ⟨k', v'⟩ := e
    simp only [put]
    split <;> simp only [get?_cons, ih] <;> grind

theorem keys_put (es : Entries κ α) (k : κ) (v : α) :
    (es.put k v).keys = if k ∈ es.keys then es.keys else es.keys ++ [k] := by
  induction es with
  | nil => rfl
  | cons e es ih =>
    obtain ⟨k', v'⟩ := e
    simp only [keys] at ih
    simp only [put, keys, List.map_cons, List.mem_cons]
    split <;> simp only [List.map_cons, ih] <;> grind

theorem isSome_get?_iff (es : Entries κ α) (key : κ) :
    (es.get? key).isSome = true ↔ key ∈ es.keys := by
  induction es with
  | nil => simp [keys]
  | cons e es ih =>
    obtain ⟨k, v⟩ := e
    rw [get?_cons]
    simp only [keys, List.map_cons, List.mem_cons] at ih ⊢
    grind

/-- What was put under a new key can be taken away again. -/
theorem erase_put {es : Entries κ α} {k : κ} (h : k ∉ es.keys) (v : α) :
    (es.put k v).erase k = es := by
  induction es with
  | nil => simp [put, erase]
  | cons e es ih =>
    obtain ⟨k', v'⟩ := e
    simp only [keys, List.map_cons, List.mem_cons, not_or] at h ih
    have hk : k' ≠ k := fun h' => h.1 h'.symm
    have := ih h.2
    simp_all [put, erase]

end Entries

end Rulebook
