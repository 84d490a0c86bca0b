import Rulebook.Proofs.Values

set_option autoImplicit false

/-!
What normalisation refuses and what it leaves alone. It refuses the data that has, at some depth, a foreign
object or a key that is no text, and only that. All other data keeps its kind, its text, and the values that
its paths lead to; nothing but its tuples changes.
-/

namespace Rulebook.Value

/-- A property of every value, if the values inside a value pass it on. -/
@[elab_as_elim]
theorem of_parts {P : Value → Prop} (null : P .null) (bool : ∀ b, P (.bool b)) (number : ∀ n, P (.number n))
    (text : ∀ s, P (.text s)) (list : ∀ items, (∀ v ∈ items, P v) → P (.list items))
    (tuple : ∀ items, (∀ v ∈ items, P v) → P (.tuple items))
    (map : ∀ es : List (Key × Value), (∀ e ∈ es, P e.2) → P (.map es)) (foreign : ∀ t, P (.foreign t))
    (v : Value) : P v := by
  refine @Value.rec P (fun items => ∀ v ∈ items, P v) (fun es => ∀ e ∈ es, P e.2) (fun e => P e.2)
    null bool number text list tuple map foreign ?_ ?_ ?_ ?_ ?_ v
  · simp
  · exact fun _ _ hv hvs => List.forall_mem_cons.mpr ⟨hv, hvs⟩
  · simp
  · exact fun _ _ he hes => List.forall_mem_cons.mpr ⟨he, hes⟩
  · exact fun _ _ hv => hv

/-- The second value stands somewhere in the first one. -/
inductive Contains : Value → Value → Prop
  | self (v : Value) : Contains v v
  | item {items : List Value} {v w : Value} : v ∈ items → Contains v w → Contains (.list items) w
  | tupleItem {items : List Value} {v w : Value} : v ∈ items → Contains v w → Contains (.tuple items) w
  | entry {es : List (Key × Value)} {e : Key × Value} {w : Value} : e ∈ es → Contains e.2 w →
      Contains (.map es) w

/-- Data outside the language: a foreign object, or a map with a key that is no text. -/
inductive Offends : Value → Prop
  | foreign (typeName : String) : Offends (.foreign typeName)
  | key {es : List (Key × Value)} {e : Key × Value} : e ∈ es → (∀ s, e.1 ≠ .text s) → Offends (.map es)

/-- No tuple stands anywhere in closed values. -/
theorem Contains.closed {v w : Value} (h : v.Contains w) (hv : v.Closed) : w.Closed := by
  induction h with
  | self v => exact hv
  | item hmem _ ih =>
    rw [Closed, closedItems_iff] at hv
    exact ih (hv _ hmem)
  | tupleItem => simp [Closed] at hv
  | entry hmem _ ih =>
    rw [Closed, closedEntries_iff] at hv
    exact ih (hv _ hmem).2

/-! ### What is refused -/

theorem normalize_tuple (items : List Value) : (tuple items).normalize = (list items).normalize := by
  rw [normalize, normalize]

theorem exists_normalizeItems_iff {items : List Value} :
    (∃ ws, normalizeItems items = .ok ws) ↔ ∀ v ∈ items, ∃ w, v.normalize = .ok w := by
  induction items with
  | nil => simp [normalizeItems]
  | cons v vs ih =>
    rw [List.forall_mem_cons, ← ih, normalizeItems]
    constructor
    · rintro ⟨ws, h⟩
      obtain ⟨w, hw, h⟩ := bind_eq_ok.mp h
      obtain ⟨rest, hrest, -⟩ := bind_eq_ok.mp h
      exact ⟨⟨w, hw⟩, rest, hrest⟩
    · rintro ⟨⟨w, hw⟩, rest, hrest⟩
      rw [hw, hrest]
      exact ⟨_, rfl⟩

theorem exists_normalizeEntries_iff {es : List (Key × Value)} :
    (∃ fs, normalizeEntries es = .ok fs) ↔
      ∀ e ∈ es, (∃ s, e.1 = .text s) ∧ ∃ w, e.2.normalize = .ok w := by
  induction es with
  | nil => simp [normalizeEntries]
  | cons e es ih =>
    obtain ⟨k, v⟩ := e
    rw [List.forall_mem_cons, ← ih]
    cases k with
    | text s =>
      rw [normalizeEntries]
      constructor
      · rintro ⟨fs, h⟩
        obtain ⟨w, hw, h⟩ := bind_eq_ok.mp h
        obtain ⟨rest, hrest, -⟩ := bind_eq_ok.mp h
        exact ⟨⟨⟨s, rfl⟩, w, hw⟩, rest, hrest⟩
      · rintro ⟨⟨-, w, hw⟩, rest, hrest⟩
        dsimp only at hw
        rw [hw, hrest]
        exact ⟨_, rfl⟩
    | _ => simp [normalizeEntries]

theorem exists_normalize_list_iff {items : List Value} :
    (∃ w, (list items).normalize = .ok w) ↔ ∀ v ∈ items, ∃ w, v.normalize = .ok w := by
  rw [← exists_normalizeItems_iff, normalize]
  cases normalizeItems items <;> simp [bind, Except.bind, pure, Except.pure]

theorem exists_normalize_map_iff {es : List (Key × Value)} :
    (∃ w, (map es).normalize = .ok w) ↔ ∀ e ∈ es, (∃ s, e.1 = .text s) ∧ ∃ w, e.2.normalize = .ok w := by
  rw [← exists_normalizeEntries_iff, normalize]
  cases normalizeEntries es <;> simp [bind, Except.bind, pure, Except.pure]

/-- Data with a part that offends is refused, and no other. -/
theorem exists_normalize_iff (v : Value) :
    (∃ w, v.normalize = .ok w) ↔ ∀ part, v.Contains part → ¬part.Offends := by
  induction v using of_parts with
  | null | bool | number | text =>
    refine iff_of_true (by simp [normalize]) fun part hpart hoffends => ?_
    cases hpart
    cases hoffends
  | foreign t =>
    refine iff_of_false (by simp [normalize]) fun h => ?_
    exact h _ (.self _) (.foreign t)
  | list items ih =>
    rw [exists_normalize_list_iff]
    constructor
    · intro h part hpart hoffends
      cases hpart with
      | self => cases hoffends
      | item hmem hpart => exact (ih _ hmem).mp (h _ hmem) part hpart hoffends
    · exact fun h v hmem => (ih v hmem).mpr fun part hpart => h part (.item hmem hpart)
  | tuple items ih =>
    rw [normalize_tuple, exists_normalize_list_iff]
    constructor
    · intro h part hpart hoffends
      cases hpart with
      | self => cases hoffends
      | tupleItem hmem hpart => exact (ih _ hmem).mp (h _ hmem) part hpart hoffends
    · exact fun h v hmem => (ih v hmem).mpr fun part hpart => h part (.tupleItem hmem hpart)
  | map es ih =>
    rw [exists_normalize_map_iff]
    constructor
    · intro h part hpart hoffends
      cases hpart with
      | self =>
        cases hoffends with
        | key hmem hkey =>
          obtain ⟨s, hs⟩ := (h _ hmem).1
          exact hkey s hs
      | entry hmem hpart => exact (ih _ hmem).mp (h _ hmem).2 part hpart hoffends
    · intro h e hmem
      refine ⟨?_, (ih e hmem).mpr fun part hpart => h part (.entry hmem hpart)⟩
      apply Classical.byContradiction
      intro hkey
      exact h _ (.self _) (.key hmem fun s hs => hkey ⟨s, hs⟩)

/-! ### What stays as it is -/

theorem kind_normalize {v w : Value} (h : v.normalize = .ok w) : w.kind = v.kind := by
  cases v with
  | list items | tuple items =>
    rw [normalize] at h
    obtain ⟨ws, -, hw⟩ := bind_eq_ok.mp h
    cases hw
    rfl
  | map es =>
    rw [normalize] at h
    obtain ⟨fs, -, hw⟩ := bind_eq_ok.mp h
    cases hw
    rfl
  | foreign t => simp [normalize] at h
  | _ =>
    simp only [normalize, Except.ok.injEq] at h
    rw [h]

theorem displayItems_normalize {items ws : List Value}
    (hshown : ∀ v ∈ items, ∀ w, v.normalize = .ok w → w.display = v.display)
    (h : normalizeItems items = .ok ws) : displayItems ws = displayItems items := by
  induction items generalizing ws with
  | nil =>
    rw [normalizeItems] at h
    cases h
    rfl
  | cons v vs ih =>
    obtain ⟨hv, hvs⟩ := List.forall_mem_cons.mp hshown
    rw [normalizeItems] at h
    obtain ⟨w, hw, h⟩ := bind_eq_ok.mp h
    obtain ⟨rest, hrest, h⟩ := bind_eq_ok.mp h
    cases h
    rw [displayItems, displayItems, hv w hw, ih hvs hrest]

theorem displayEntries_normalize {es fs : List (Key × Value)}
    (hshown : ∀ e ∈ es, ∀ w, e.2.normalize = .ok w → w.display = e.2.display)
    (h : normalizeEntries es = .ok fs) : displayEntries fs = displayEntries es := by
  induction es generalizing fs with
  | nil =>
    rw [normalizeEntries] at h
    cases h
    rfl
  | cons e es ih =>
    obtain ⟨k, v⟩ := e
    obtain ⟨hv, hes⟩ := List.forall_mem_cons.mp hshown
    cases k with
    | text s =>
      rw [normalizeEntries] at h
      obtain ⟨w, hw, h⟩ := bind_eq_ok.mp h
      obtain ⟨rest, hrest, h⟩ := bind_eq_ok.mp h
      cases h
      rw [displayEntries, displayEntries, hv w hw, ih hes hrest]
    | _ => simp [normalizeEntries] at h

theorem display_normalize (v : Value) : ∀ w, v.normalize = .ok w → w.display = v.display := by
  induction v using of_parts with
  | null | bool | number | text =>
    intro w h
    simp only [normalize, Except.ok.injEq] at h
    rw [h]
  | foreign t => simp [normalize]
  | list items ih | tuple items ih =>
    intro w h
    rw [normalize] at h
    obtain ⟨ws, hws, hw⟩ := bind_eq_ok.mp h
    cases hw
    rw [display, display, displayItems_normalize ih hws]
  | map es ih =>
    intro w h
    rw [normalize] at h
    obtain ⟨fs, hfs, hw⟩ := bind_eq_ok.mp h
    cases hw
    rw [display, display, displayEntries_normalize ih hfs]

/-- What stands in some position is normalised like the whole; a position out of range counts as null. -/
theorem normalize_getD {items ws : List Value} (h : normalizeItems items = .ok ws) (i : Nat) :
    ((items[i]?).getD .null).normalize = .ok ((ws[i]?).getD .null) := by
  induction items generalizing ws i with
  | nil =>
    rw [normalizeItems] at h
    cases h
    simp [normalize]
  | cons v vs ih =>
    rw [normalizeItems] at h
    obtain ⟨w, hw, h⟩ := bind_eq_ok.mp h
    obtain ⟨rest, hrest, h⟩ := bind_eq_ok.mp h
    cases h
    cases i with
    | zero => simpa using hw
    | succ i => simpa using ih hrest i

theorem normalize_item {items ws : List Value} (h : normalizeItems items = .ok ws) (n : Int) :
    (item items n).normalize = .ok (item ws n) := by
  rw [item, item]
  by_cases hn : n < 0
  · rw [if_pos hn, if_pos hn]
    simp [normalize]
  · rw [if_neg hn, if_neg hn]
    exact normalize_getD h n.toNat

/-- A step leads from a value and from its normal form to a value and its normal form. -/
theorem normalize_step {v w : Value} (h : v.normalize = .ok w) (s : Segment) :
    (v.step s).normalize = .ok (w.step s) := by
  have hnull : null.normalize = .ok null := by simp [normalize]
  cases v with
  | list items | tuple items =>
    rw [normalize] at h
    obtain ⟨ws, hws, hw⟩ := bind_eq_ok.mp h
    cases hw
    cases s with
    | index n => exact normalize_item hws n
    | key | other => exact hnull
  | map es =>
    rw [normalize] at h
    obtain ⟨fs, hfs, hw⟩ := bind_eq_ok.mp h
    cases hw
    cases s with
    | key name => exact normalize_lookup hfs name
    | index | other => exact hnull
  | foreign t => simp [normalize] at h
  | _ =>
    simp only [normalize, Except.ok.injEq] at h
    subst h
    exact hnull

theorem normalize_traverse {v w : Value} (h : v.normalize = .ok w) (path : List Segment) :
    (v.traverse path).normalize = .ok (w.traverse path) := by
  induction path generalizing v w with
  | nil => exact h
  | cons s path ih => exact ih (normalize_step h s)

/-- Normalisation fails exactly on data that has a foreign object or a key that is no text at some depth. What
it makes of other data has no tuple at any depth and is left alone by a second normalisation; it is of the same
kind and shows the same text, and every path leads from it to the normal form of what the path leads to in the
data. -/
theorem normalize_faithful (v : Value) :
    ((∃ fault, v.normalize = .error fault) ↔ ∃ part, v.Contains part ∧ part.Offends) ∧
      ∀ w, v.normalize = .ok w →
        (∀ items, ¬w.Contains (.tuple items)) ∧ w.normalize = .ok w ∧ w.kind = v.kind ∧
          w.display = v.display ∧
          ∀ path, (v.traverse path).normalize = .ok (w.traverse path) := by
  refine ⟨?_, fun w h => ?_⟩
  · have hok := exists_normalize_iff v
    cases hv : v.normalize with
    | error fault =>
      refine iff_of_true ⟨fault, rfl⟩ ?_
      apply Classical.byContradiction
      intro hnone
      obtain ⟨w, hw⟩ := hok.mpr fun part hpart hoffends => hnone ⟨part, hpart, hoffends⟩
      cases hv.symm.trans hw
    | ok w =>
      apply iff_of_false (by simp)
      rintro ⟨part, hpart, hoffends⟩
      exact hok.mp ⟨w, hv⟩ part hpart hoffends
  · have hclosed := closed_of_normalize h
    refine ⟨fun items htuple => ?_, normalize_of_closed hclosed, kind_normalize h, display_normalize v w h,
      normalize_traverse h⟩
    have hitems := htuple.closed hclosed
    simp [Closed] at hitems

/-- A tuple in a map, with a tuple in a list in it. -/
def ofPoint : Value := .map [(.text "at", .tuple [.int 3, .list [.tuple [.null, .bool true]]])]

theorem normalize_faithful_ofPoint :
    let w := Value.map [(.text "at", .list [.int 3, .list [.list [.null, .bool true]]])]
    ofPoint.normalize = .ok w ∧ (∀ items, ¬w.Contains (.tuple items)) ∧ w.normalize = .ok w ∧
      w.kind = ofPoint.kind ∧ w.display = ofPoint.display ∧
      (ofPoint.traverse [.key "at", .index 1]).normalize = .ok (w.traverse [.key "at", .index 1]) := by
  intro w
  have hnormal : ofPoint.normalize = .ok w := by
    simp [ofPoint, w, normalize, normalizeEntries, normalizeItems, int, bind, Except.bind, pure, Except.pure]
  obtain ⟨htuple, hagain, hkind, hdisplay, htraverse⟩ := (normalize_faithful ofPoint).2 w hnormal
  exact ⟨hnormal, htuple, hagain, hkind, hdisplay, htraverse _⟩

end Rulebook.Value
