import Rulebook.Value.Display
import Rulebook.Value.Equality
import Rulebook.Value.Normal
import Rulebook.Value.Path

set_option autoImplicit false

/-!
Closed values. Normalisation gives closed values and leaves them alone; a step of a path leads from a
closed value to a closed one; comparing closed values never fails, and displaying them fails only for an
integer of too many digits.
-/

namespace Rulebook

theorem bind_eq_ok {ε α β : Type} {x : Except ε α} {f : α → Except ε β} {b : β} :
    x >>= f = .ok b ↔ ∃ a, x = .ok a ∧ f a = .ok b := by
  cases x <;> simp [bind, Except.bind]

theorem bind_eq_error {ε α β : Type} {x : Except ε α} {f : α → Except ε β} {e : ε} :
    x >>= f = .error e ↔ x = .error e ∨ ∃ a, x = .ok a ∧ f a = .error e := by
  cases x <;> simp [bind, Except.bind]

theorem isOk_iff {ε α : Type} {x : Except ε α} : x.isOk = true ↔ ∃ a, x = .ok a := by
  cases x <;> simp [Except.isOk, Except.toBool]

theorem toOption_map_eq_some {ε α β : Type} {x : Except ε α} {f : α → β} {b : β} :
    x.toOption.map f = some b ↔ ∃ a, x = .ok a ∧ f a = b := by
  cases x <;> simp [Except.toOption]

theorem map_eq_ok {ε α β : Type} {x : Except ε α} {f : α → β} {b : β} :
    x.map f = .ok b ↔ ∃ a, x = .ok a ∧ f a = b := by
  cases x <;> simp [Except.map]

theorem map_eq_error {ε α β : Type} {x : Except ε α} {f : α → β} {e : ε} :
    x.map f = .error e ↔ x = .error e := by
  cases x <;> simp [Except.map]

theorem mapError_eq_ok {ε δ α : Type} {x : Except ε α} {f : ε → δ} {a : α} :
    x.mapError f = .ok a ↔ x = .ok a := by
  constructor
  · intro h
    cases x <;> cases h
    rfl
  · rintro rfl
    rfl

theorem mapError_eq_error {ε δ α : Type} {x : Except ε α} {f : ε → δ} {d : δ} :
    x.mapError f = .error d ↔ ∃ e, x = .error e ∧ f e = d := by
  constructor
  · intro h
    cases x <;> cases h
    exact ⟨_, rfl, rfl⟩
  · rintro ⟨e, rfl, rfl⟩
    rfl

namespace Value

/-- Only a text is the same key as a text. -/
theorem eq_text_of_beq {s : Text} {k : Key} (h : (Key.text s == k) = true) : k = .text s := by
  cases k with
  | text t => simpa using (LawfulBEq.eq_of_beq (Key.text_beq s t ▸ h)).symm
  | _ => simp [BEq.beq, Key.same, Key.asNumber?] at h

theorem mem_of_lookup {es : List (Key × Value)} {s : Text} {v : Value}
    (h : es.lookup (.text s) = some v) : (.text s, v) ∈ es := by
  induction es with
  | nil => simp at h
  | cons e es ih =>
    obtain ⟨k, w⟩ := e
    rw [List.lookup_cons] at h
    cases hk : Key.text s == k with
    | true =>
      simp only [hk, Option.some.injEq] at h
      rw [eq_text_of_beq hk, h]
      exact List.mem_cons_self
    | false =>
      simp only [hk] at h
      exact List.mem_cons_of_mem _ (ih h)

theorem closedItems_iff {items : List Value} : ClosedItems items ↔ ∀ v ∈ items, v.Closed := by
  induction items with
  | nil => simp [ClosedItems]
  | cons v vs ih => simp [ClosedItems, ih]

theorem closedEntries_iff {es : List (Key × Value)} :
    ClosedEntries es ↔ ∀ e ∈ es, (∃ s, e.1 = .text s) ∧ e.2.Closed := by
  induction es with
  | nil => simp [ClosedEntries]
  | cons e es ih =>
    obtain ⟨k, v⟩ := e
    cases k <;> simp [ClosedEntries, ih]

mutual

theorem normalize_of_closed : ∀ {v : Value}, v.Closed → v.normalize = .ok v
  | .null, _ | .bool _, _ | .number _, _ | .text _, _ => by simp [normalize]
  | .list items, h => by
    rw [Closed] at h
    rw [normalize, normalizeItems_of_closed h]
    rfl
  | .map es, h => by
    rw [Closed] at h
    rw [normalize, normalizeEntries_of_closed h]
    rfl
  | .tuple _, h | .foreign _, h => by simp [Closed] at h

theorem normalizeItems_of_closed :
    ∀ {items : List Value}, ClosedItems items → normalizeItems items = .ok items
  | [], _ => by simp [normalizeItems]
  | v :: vs, h => by
    rw [ClosedItems] at h
    rw [normalizeItems, normalize_of_closed h.1, normalizeItems_of_closed h.2]
    rfl

theorem normalizeEntries_of_closed :
    ∀ {es : List (Key × Value)}, ClosedEntries es → normalizeEntries es = .ok es
  | [], _ => by simp [normalizeEntries]
  | (.text s, v) :: es, h => by
    rw [ClosedEntries] at h
    rw [normalizeEntries, normalize_of_closed h.1, normalizeEntries_of_closed h.2]
    rfl
  | (.null, _) :: _, h | (.bool _, _) :: _, h | (.number _, _) :: _, h | (.nan _, _) :: _, h
  | (.tuple _, _) :: _, h | (.foreign _, _) :: _, h => by simp [ClosedEntries] at h

end

mutual

theorem closed_of_normalize : ∀ {v w : Value}, v.normalize = .ok w → w.Closed
  | .null, w, h | .bool _, w, h | .number _, w, h | .text _, w, h => by
    simp only [normalize, Except.ok.injEq] at h
    subst h
    simp [Closed]
  | .list items, w, h | .tuple items, w, h => by
    rw [normalize] at h
    obtain ⟨vs, hvs, hw⟩ := bind_eq_ok.mp h
    cases hw
    rw [Closed]
    exact closedItems_of_normalizeItems hvs
  | .map es, w, h => by
    rw [normalize] at h
    obtain ⟨fs, hfs, hw⟩ := bind_eq_ok.mp h
    cases hw
    rw [Closed]
    exact closedEntries_of_normalizeEntries hfs
  | .foreign _, w, h => by simp [normalize] at h

theorem closedItems_of_normalizeItems :
    ∀ {items vs : List Value}, normalizeItems items = .ok vs → ClosedItems vs
  | [], vs, h => by
    simp only [normalizeItems, Except.ok.injEq] at h
    subst h
    simp [ClosedItems]
  | v :: items, vs, h => by
    rw [normalizeItems] at h
    obtain ⟨w, hw, h⟩ := bind_eq_ok.mp h
    obtain ⟨ws, hws, h⟩ := bind_eq_ok.mp h
    cases h
    rw [ClosedItems]
    exact ⟨closed_of_normalize hw, closedItems_of_normalizeItems hws⟩

theorem closedEntries_of_normalizeEntries :
    ∀ {es fs : List (Key × Value)}, normalizeEntries es = .ok fs → ClosedEntries fs
  | [], fs, h => by
    simp only [normalizeEntries, Except.ok.injEq] at h
    subst h
    simp [ClosedEntries]
  | (.text s, v) :: es, fs, h => by
    rw [normalizeEntries] at h
    obtain ⟨w, hw, h⟩ := bind_eq_ok.mp h
    obtain ⟨ws, hws, h⟩ := bind_eq_ok.mp h
    cases h
    rw [ClosedEntries]
    exact ⟨closed_of_normalize hw, closedEntries_of_normalizeEntries hws⟩
  | (.null, _) :: _, _, h | (.bool _, _) :: _, _, h | (.number _, _) :: _, _, h
  | (.nan _, _) :: _, _, h | (.tuple _, _) :: _, _, h | (.foreign _, _) :: _, _, h => by
    simp [normalizeEntries] at h

end

/-- What is found under a text is normalised like the whole; what is missing counts as null. -/
theorem normalize_lookup {es fs : List (Key × Value)} (h : normalizeEntries es = .ok fs) (s : Text) :
    ((es.lookup (.text s)).getD .null).normalize = .ok ((fs.lookup (.text s)).getD .null) := by
  induction es generalizing fs with
  | nil =>
    rw [normalizeEntries] at h
    cases h
    rw [List.lookup_nil, Option.getD_none, normalize] <;> simp
  | cons e es ih =>
    obtain ⟨k, v⟩ := e
    cases k with
    | text t =>
      rw [normalizeEntries] at h
      obtain ⟨w, hw, h⟩ := bind_eq_ok.mp h
      obtain ⟨ws, hws, h⟩ := bind_eq_ok.mp h
      cases h
      rw [List.lookup_cons, List.lookup_cons]
      cases Key.text s == Key.text t with
      | true => exact hw
      | false => exact ih hws
    | _ => simp [normalizeEntries] at h

theorem exists_kind_of_closed {v : Value} (h : v.Closed) : ∃ k, v.kind = .ok k := by
  cases v with
  | tuple items => simp [Closed] at h
  | foreign t => simp [Closed] at h
  | _ => exact ⟨_, rfl⟩

theorem closed_step {v : Value} (h : v.Closed) (s : Segment) : (v.step s).Closed := by
  cases v with
  | map es =>
    rw [Closed, closedEntries_iff] at h
    cases s with
    | key name =>
      rw [step]
      cases hl : es.lookup (.text name) with
      | none => simp [Closed]
      | some w => exact (h _ (mem_of_lookup hl)).2
    | _ => simp [step, Closed]
  | list items =>
    rw [Closed, closedItems_iff] at h
    cases s with
    | index n =>
      rw [step, item]
      split
      · simp [Closed]
      · cases hi : items[n.toNat]? with
        | none => simp [Closed]
        | some w => exact h w (List.mem_of_getElem? hi)
    | _ => simp [step, Closed]
  | tuple items => simp [Closed] at h
  | _ => simp [step, Closed]

mutual

/-- Every number in the value has a text, at any depth. -/
def isWritable : Value → Bool
  | number n => n.isWritable
  | list items | tuple items => areWritable items
  | map es => areWritableEntries es
  | _ => true

def areWritable : List Value → Bool
  | [] => true
  | v :: vs => v.isWritable && areWritable vs

def areWritableEntries : List (Key × Value) → Bool
  | [] => true
  | (_, v) :: es => v.isWritable && areWritableEntries es

end

/-- A text is there exactly if it can be written. -/
inductive Displays {α : Type} (writable : Bool) : Except DisplayFault α → Prop
  | text (s : α) : writable = true → Displays writable (.ok s)
  | digits : writable = false → Displays writable (.error .digits)

theorem Displays.map {α β : Type} {writable : Bool} {x : Except DisplayFault α}
    (h : Displays writable x) (f : α → β) : Displays writable (x >>= fun s => pure (f s)) := by
  cases h with
  | text s hw => exact .text (f s) hw
  | digits hw => exact .digits hw

theorem Displays.both {α β γ : Type} {first second : Bool} {x : Except DisplayFault α}
    {y : Except DisplayFault β} (hx : Displays first x) (hy : Displays second y) (f : α → β → γ) :
    Displays (first && second) (x >>= fun s => y >>= fun t => pure (f s t)) := by
  cases hx with
  | digits hw => exact .digits (by rw [hw, Bool.false_and])
  | text s hw =>
    rw [hw, Bool.true_and]
    exact hy.map (f s)

mutual

/-- A closed value has a text unless a number in it has none. -/
theorem displays_of_closed : ∀ {v : Value}, v.Closed → Displays v.isWritable v.display
  | .null, _ | .bool _, _ | .text _, _ => by
    rw [display]
    exact .text _ rfl
  | .number n, _ => by
    rw [display, isWritable]
    split
    · next hw => exact .text _ hw
    · next hw => exact .digits (Bool.eq_false_iff.mpr hw)
  | .list items, h => by
    rw [Closed] at h
    rw [display, isWritable]
    exact (displays_of_closedItems h).map _
  | .map es, h => by
    rw [Closed] at h
    rw [display, isWritable]
    exact (displays_of_closedEntries h).map _
  | .tuple _, h | .foreign _, h => by simp [Closed] at h

theorem displays_of_closedItems :
    ∀ {items : List Value}, ClosedItems items → Displays (areWritable items) (displayItems items)
  | [], _ => by
    rw [displayItems]
    exact .text _ rfl
  | v :: vs, h => by
    rw [ClosedItems] at h
    rw [displayItems, areWritable]
    exact (displays_of_closed h.1).both (displays_of_closedItems h.2) _

theorem displays_of_closedEntries :
    ∀ {es : List (Key × Value)}, ClosedEntries es → Displays (areWritableEntries es) (displayEntries es)
  | [], _ => by
    rw [displayEntries]
    exact .text _ rfl
  | (.text k, v) :: es, h => by
    rw [ClosedEntries] at h
    have hkey : (Key.text k).isWritable = true := by simp [Key.isWritable]
    rw [displayEntries, areWritableEntries, if_pos hkey]
    exact (displays_of_closed h.1).both (displays_of_closedEntries h.2) _
  | (.null, _) :: _, h | (.bool _, _) :: _, h | (.number _, _) :: _, h | (.nan _, _) :: _, h
  | (.tuple _, _) :: _, h | (.foreign _, _) :: _, h => by simp [ClosedEntries] at h

end

mutual

theorem exists_equal_of_closed : ∀ {v w : Value}, v.Closed → w.Closed → ∃ b, v.equal w = .ok b
  | .list xs, w, hv, hw => by
    rw [Closed] at hv
    cases w with
    | list ys =>
      rw [Closed] at hw
      rw [equal]
      split
      · exact exists_equalItems_of_closed hv hw
      · exact ⟨_, rfl⟩
    | tuple ys => simp [Closed] at hw
    | foreign t => simp [Closed] at hw
    | _ => simp [equal]
  | .map es, w, hv, hw => by
    rw [Closed] at hv
    cases w with
    | map fs =>
      rw [Closed] at hw
      rw [equal]
      split
      · exact exists_equalEntries_of_closed hv hw
      · exact ⟨_, rfl⟩
    | tuple ys => simp [Closed] at hw
    | foreign t => simp [Closed] at hw
    | _ => simp [equal]
  | .null, w, _, hw | .bool _, w, _, hw | .number _, w, _, hw | .text _, w, _, hw => by
    cases w with
    | foreign t => simp [Closed] at hw
    | _ => simp [equal]
  | .tuple _, _, hv, _ | .foreign _, _, hv, _ => by simp [Closed] at hv

theorem exists_equalItems_of_closed :
    ∀ {xs ys : List Value}, ClosedItems xs → ClosedItems ys → ∃ b, equalItems xs ys = .ok b
  | [], _, _, _ => by simp [equalItems]
  | _ :: _, [], _, _ => by simp [equalItems]
  | x :: xs, y :: ys, hx, hy => by
    rw [ClosedItems] at hx hy
    obtain ⟨b, hb⟩ := exists_equal_of_closed hx.1 hy.1
    rw [equalItems, hb]
    cases b with
    | true => exact exists_equalItems_of_closed hx.2 hy.2
    | false => exact ⟨_, rfl⟩

theorem exists_equalEntries_of_closed :
    ∀ {es fs : List (Key × Value)}, ClosedEntries es → ClosedEntries fs →
      ∃ b, equalEntries es fs = .ok b
  | [], _, _, _ => by simp [equalEntries]
  | (.text k, v) :: es, fs, he, hf => by
    rw [ClosedEntries] at he
    rw [equalEntries]
    cases hl : fs.lookup (.text k) with
    | none => exact ⟨_, rfl⟩
    | some w =>
      obtain ⟨b, hb⟩ := exists_equal_of_closed he.1 (closedEntries_iff.mp hf _ (mem_of_lookup hl)).2
      simp only [hb]
      cases b with
      | true => exact exists_equalEntries_of_closed he.2 hf
      | false => exact ⟨_, rfl⟩
  | (.null, _) :: _, _, he, _ | (.bool _, _) :: _, _, he, _ | (.number _, _) :: _, _, he, _
  | (.nan _, _) :: _, _, he, _ | (.tuple _, _) :: _, _, he, _ | (.foreign _, _) :: _, _, he, _ => by
    simp [ClosedEntries] at he

end

end Value

end Rulebook
