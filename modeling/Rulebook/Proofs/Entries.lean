import Mathlib.Data.List.Nodup
import Mathlib.Data.List.Perm.Basic
import Rulebook.Entries

set_option autoImplicit false

/-!
Entries whose keys are distinct are determined by their keys in order and by what is found under each.
Overriding keeps the keys of the first entries in their places and adds the new ones behind them.
-/

namespace Rulebook.Entries

variable {κ α : Type} [DecidableEq κ]

theorem mem_keys_put {es : Entries κ α} {k key : κ} {v : α} :
    key ∈ (es.put k v).keys ↔ key = k ∨ key ∈ es.keys := by
  rw [keys_put]
  split
  · next h => exact ⟨.inr, fun h' => h'.elim (fun e => e ▸ h) id⟩
  · simp [or_comm]

theorem nodup_keys_put {es : Entries κ α} (h : es.keys.Nodup) (k : κ) (v : α) :
    (es.put k v).keys.Nodup := by
  rw [keys_put]
  split
  · exact h
  · next hk => exact List.Nodup.append h (List.nodup_singleton k) (by simpa using hk)

theorem put_of_not_mem {es : Entries κ α} {k : κ} (h : k ∉ es.keys) (v : α) :
    es.put k v = es ++ [(k, v)] := by
  induction es with
  | nil => rfl
  | cons e es ih =>
    obtain ⟨k', w⟩ := e
    simp only [keys, List.map_cons, List.mem_cons, not_or] at h
    rw [put, if_neg (Ne.symm h.1), ih h.2]
    rfl

theorem mem_put {es : Entries κ α} {k : κ} {v : α} {e : κ × α} (h : e ∈ es.put k v) :
    e = (k, v) ∨ e ∈ es := by
  induction es with
  | nil => exact .inl (by simpa [put] using h)
  | cons f es ih =>
    obtain ⟨l, w⟩ := f
    rw [put] at h
    split at h
    · next hl =>
      subst hl
      rcases List.mem_cons.mp h with rfl | h
      · exact .inl rfl
      · exact .inr (List.mem_cons_of_mem _ h)
    · rcases List.mem_cons.mp h with rfl | h
      · exact .inr (by simp)
      · exact (ih h).imp_right (List.mem_cons_of_mem _)

theorem get?_eq_none_iff {es : Entries κ α} {key : κ} : es.get? key = none ↔ key ∉ es.keys := by
  rw [← isSome_get?_iff]
  simp

theorem mem_keys_of_get? {es : Entries κ α} {k : κ} {v : α} (h : es.get? k = some v) : k ∈ es.keys := by
  rw [← isSome_get?_iff, h]
  rfl

theorem mem_of_get? {es : Entries κ α} {k : κ} {v : α} (h : es.get? k = some v) : (k, v) ∈ es := by
  induction es with
  | nil => cases h
  | cons e es ih =>
    obtain ⟨k', w⟩ := e
    rw [get?_cons] at h
    split at h
    · next hk =>
      cases h
      simp [hk]
    · exact List.mem_cons_of_mem _ (ih h)

theorem get?_of_mem {es : Entries κ α} (hd : es.keys.Nodup) {k : κ} {v : α} (h : (k, v) ∈ es) :
    es.get? k = some v := by
  induction es with
  | nil => cases h
  | cons e es ih =>
    obtain ⟨k', w⟩ := e
    simp only [keys, List.map_cons, List.nodup_cons] at hd
    rw [get?_cons]
    rcases List.mem_cons.mp h with heq | hmem
    · cases heq
      simp
    · have hne : k' ≠ k := fun hk => hd.1 (hk ▸ List.mem_map.mpr ⟨(k, v), hmem, rfl⟩)
      rw [if_neg hne]
      exact ih hd.2 hmem

theorem mem_iff_get? {es : Entries κ α} (hd : es.keys.Nodup) {k : κ} {v : α} :
    (k, v) ∈ es ↔ es.get? k = some v :=
  ⟨get?_of_mem hd, mem_of_get?⟩

omit [DecidableEq κ] in
theorem nodup_of_keys {es : Entries κ α} (hd : es.keys.Nodup) : es.Nodup :=
  List.Nodup.of_map _ hd

/-- The same entries in some order: nothing but the order of the keys can tell them apart. -/
theorem perm_of_get? {es fs : Entries κ α} (he : es.keys.Nodup) (hf : fs.keys.Nodup)
    (h : ∀ key, es.get? key = fs.get? key) : es.Perm fs := by
  refine (List.perm_ext_iff_of_nodup (nodup_of_keys he) (nodup_of_keys hf)).mpr ?_
  rintro ⟨k, v⟩
  rw [mem_iff_get? he, mem_iff_get? hf, h]

theorem ext_of_keys {es fs : Entries κ α} (hk : es.keys = fs.keys) (hd : es.keys.Nodup)
    (h : ∀ key, es.get? key = fs.get? key) : es = fs := by
  induction es generalizing fs with
  | nil =>
    cases fs with
    | nil => rfl
    | cons f fs => simp [keys] at hk
  | cons e es ih =>
    cases fs with
    | nil => simp [keys] at hk
    | cons f fs =>
      obtain ⟨k, v⟩ := e
      obtain ⟨l, w⟩ := f
      simp only [keys, List.map_cons, List.cons.injEq, List.nodup_cons] at hk hd
      obtain ⟨rfl, hks⟩ := hk
      have hv := h k
      simp only [get?_cons, if_true, Option.some.injEq] at hv
      have hrest : ∀ key, get? es key = get? fs key := by
        intro key
        by_cases hkey : k = key
        · have hnone : ∀ gs : Entries κ α, k ∉ keys gs → get? gs key = none :=
            fun gs hg => get?_eq_none_iff.mpr (hkey ▸ hg)
          rw [hnone es hd.1, hnone fs (by rw [keys, ← hks]; exact hd.1)]
        · have := h key
          rwa [get?_cons, get?_cons, if_neg hkey, if_neg hkey] at this
      rw [hv, ih hks hd.2 hrest]

/-- Putting under a key that is there already can be done earlier or later. -/
theorem put_comm {es : Entries κ α} {k l : κ} (hkl : k ≠ l) (hk : k ∈ es.keys) (v w : α) :
    (es.put k v).put l w = (es.put l w).put k v := by
  induction es with
  | nil => simp [keys] at hk
  | cons e es ih =>
    obtain ⟨k', u⟩ := e
    simp only [keys, List.map_cons, List.mem_cons] at hk
    by_cases h : k' = k
    · have hl : k' ≠ l := fun h' => hkl (h.symm.trans h')
      simp [put, h, hkl]
    · have hmem : k ∈ keys es := hk.resolve_left (Ne.symm h)
      by_cases hl : k' = l
      · simp [put, hl, Ne.symm hkl]
      · simp [put, h, hl, ih hmem]

@[simp] theorem put_put_self (es : Entries κ α) (k : κ) (v w : α) :
    (es.put k v).put k w = es.put k w := by
  induction es with
  | nil => simp [put]
  | cons e es ih =>
    obtain ⟨k', u⟩ := e
    by_cases h : k' = k <;> simp [put, h, ih]

@[simp] theorem override_nil (es : Entries κ α) : es.override [] = es := rfl

@[simp] theorem override_cons (es fs : Entries κ α) (k : κ) (v : α) :
    es.override ((k, v) :: fs) = (es.put k v).override fs := rfl

theorem override_append (es fs gs : Entries κ α) :
    es.override (fs ++ gs) = (es.override fs).override gs := List.foldl_append

/-- A value that is put again before the overriding entries are passed, unless one of them hides it. -/
theorem put_override {es fs : Entries κ α} {k : κ} (hes : k ∈ es.keys) (hfs : k ∉ fs.keys) (v : α) :
    (es.override fs).put k v = (es.put k v).override fs := by
  induction fs generalizing es with
  | nil => rfl
  | cons f fs ih =>
    obtain ⟨l, w⟩ := f
    simp only [keys, List.map_cons, List.mem_cons, not_or] at hfs
    rw [override_cons, override_cons, ih (mem_keys_put.mpr (.inr hes)) hfs.2,
      put_comm hfs.1 hes]

/-- Overriding by entries with one more put is one more put. -/
theorem override_put {es fs : Entries κ α} (hd : fs.keys.Nodup) (k : κ) (v : α) :
    es.override (fs.put k v) = (es.override fs).put k v := by
  induction fs generalizing es with
  | nil => rfl
  | cons f fs ih =>
    obtain ⟨l, w⟩ := f
    simp only [keys, List.map_cons, List.nodup_cons] at hd
    by_cases h : l = k
    · subst h
      have hput : (es.put l w).put l v = es.put l v := put_put_self es l w v
      rw [override_cons, put_override (mem_keys_put.mpr (.inl rfl)) hd.1, hput]
      simp [put]
    · simp only [put, if_neg h, override_cons]
      exact ih hd.2

theorem get?_override {es fs : Entries κ α} (hd : fs.keys.Nodup) (key : κ) :
    (es.override fs).get? key = (fs.get? key).or (es.get? key) := by
  induction fs generalizing es with
  | nil => rfl
  | cons f fs ih =>
    obtain ⟨l, w⟩ := f
    simp only [keys, List.map_cons, List.nodup_cons] at hd
    rw [override_cons, ih hd.2, get?_put, get?_cons]
    by_cases h : l = key
    · have hnone : get? fs key = none := get?_eq_none_iff.mpr (h ▸ hd.1)
      simp [h, hnone]
    · simp [h]

/-- The keys of the first entries stay in front, in their order; the new ones follow in theirs. -/
theorem keys_override {es fs : Entries κ α} (hd : fs.keys.Nodup) :
    (es.override fs).keys = es.keys ++ fs.keys.filter (· ∉ es.keys) := by
  induction fs generalizing es with
  | nil => simp [keys]
  | cons f fs ih =>
    obtain ⟨l, w⟩ := f
    have hfresh : l ∉ keys fs := (List.nodup_cons.mp hd).1
    have hkeys : keys ((l, w) :: fs) = l :: keys fs := rfl
    rw [override_cons, ih (List.nodup_cons.mp hd).2, keys_put, hkeys]
    by_cases h : l ∈ es.keys
    · simp [h]
    · -- the keys of `fs` are new to `es` exactly if they are new to `es` with `l`
      have hsame : (keys fs).filter (· ∉ es.keys ++ [l]) = (keys fs).filter (· ∉ es.keys) := by
        refine List.filter_congr fun k hk => ?_
        have hne : k ≠ l := fun h' => hfresh (h' ▸ hk)
        simp [hne]
      rw [if_neg h, hsame, List.filter_cons_of_pos (by simpa using h)]
      simp

/-- The entries that a function gives for some keys, in the order of the keys. -/
def collect (ks : List κ) (f : κ → Option α) : Entries κ α := ks.filterMap fun k => (f k).map (k, ·)

omit [DecidableEq κ] in
theorem keys_collect {ks : List κ} {f : κ → Option α} (h : ∀ k ∈ ks, (f k).isSome = true) :
    (collect ks f).keys = ks := by
  induction ks with
  | nil => rfl
  | cons k ks ih =>
    obtain ⟨hk, hks⟩ := List.forall_mem_cons.mp h
    obtain ⟨v, hv⟩ := Option.isSome_iff_exists.mp hk
    have := ih hks
    simp only [collect, keys] at this ⊢
    simp [hv, this]

theorem get?_collect (ks : List κ) (f : κ → Option α) (key : κ) :
    (collect ks f).get? key = if key ∈ ks then f key else none := by
  induction ks with
  | nil => rfl
  | cons k ks ih =>
    simp only [collect] at ih
    simp only [collect, List.filterMap_cons, List.mem_cons]
    by_cases h : key = k
    · subst h
      cases hf : f key with
      | none => simp [ih, hf]
      | some v => simp [get?_cons]
    · cases f k with
      | none => simp [ih, h]
      | some v => simp [get?_cons, ih, h, Ne.symm h]

end Rulebook.Entries
