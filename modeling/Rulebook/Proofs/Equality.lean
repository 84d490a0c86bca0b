import Mathlib.Data.List.Perm.Subperm
import Mathlib.Logic.Relation
import Rulebook.Entries
import Rulebook.Proofs.Values

set_option autoImplicit false

/-!
Equality of values is an equivalence that paths respect. Two lists are equal if equal values stand in the same
positions, and two maps if equal values stand under the same keys, so the order of the keys makes no
difference. The result of an undefined operation is left out, since it does not even equal itself.
-/

namespace Rulebook

/-- Numbers are equal if they have one place in the order. -/
theorem Number.eq_iff {a b : Number} :
    a.eq b = true ↔ ∃ place, a.rank? = some place ∧ b.rank? = some place := by
  unfold Number.eq
  cases a.rank? with
  | none => simp
  | some x =>
    cases b.rank? with
    | none => simp
    | some y =>
      simp only [beq_iff_eq, Option.some.injEq, exists_eq_left']
      exact eq_comm

namespace Value

/-- Closed values without results of undefined operations, whose maps have every key once. -/
inductive Ordinary : Value → Prop
  | null : Ordinary .null
  | bool (b : Bool) : Ordinary (.bool b)
  | number {n : Number} : n.isNaN = false → Ordinary (.number n)
  | text (s : Text) : Ordinary (.text s)
  | list {items : List Value} : (∀ v ∈ items, Ordinary v) → Ordinary (.list items)
  | map {es : List (Key × Value)} : (Entries.keys es).Nodup → (∀ e ∈ es, ∃ s, e.1 = .text s) →
      (∀ e ∈ es, Ordinary e.2) → Ordinary (.map es)

theorem Ordinary.closed {v : Value} (h : v.Ordinary) : v.Closed := by
  induction h with
  | null | bool | number | text => simp [Closed]
  | list _ ih =>
    rw [Closed, closedItems_iff]
    exact ih
  | map _ hkeys _ ih =>
    rw [Closed, closedEntries_iff]
    exact fun e he => ⟨hkeys e he, ih e he⟩

/-- Comparison finds the values equal. -/
def Agrees (v w : Value) : Prop := v.equal w = .ok true

/-! ### Finding entries -/

section

variable {es fs : List (Key × Value)} {s : Text} {v : Value}

theorem lookup_of_mem (hd : (Entries.keys es).Nodup) (h : (.text s, v) ∈ es) :
    es.lookup (.text s) = some v := by
  induction es with
  | nil => cases h
  | cons e es ih =>
    obtain ⟨k, w⟩ := e
    obtain ⟨hnew, hd⟩ := List.nodup_cons.mp hd
    rw [List.lookup_cons]
    rcases List.mem_cons.mp h with heq | hmem
    · cases heq
      simp
    · have hne : (Key.text s == k) = false := by
        refine Bool.eq_false_iff.mpr fun hk => hnew ?_
        rw [eq_text_of_beq hk]
        exact List.mem_map.mpr ⟨_, hmem, rfl⟩
      simp only [hne]
      exact ih hd hmem

theorem mem_iff_lookup (hd : (Entries.keys es).Nodup) :
    (.text s, v) ∈ es ↔ es.lookup (.text s) = some v :=
  ⟨lookup_of_mem hd, mem_of_lookup⟩

theorem text_mem_keys_iff (hd : (Entries.keys es).Nodup) :
    Key.text s ∈ Entries.keys es ↔ ∃ v, es.lookup (.text s) = some v := by
  constructor
  · intro h
    obtain ⟨e, he, hk⟩ := List.mem_map.mp h
    refine ⟨e.2, lookup_of_mem hd ?_⟩
    rw [← hk]
    exact he
  · rintro ⟨v, hv⟩
    exact List.mem_map.mpr ⟨_, mem_of_lookup hv, rfl⟩

theorem text_of_mem_keys (h : ∀ e ∈ es, ∃ s, e.1 = .text s) {k : Key} (hk : k ∈ Entries.keys es) :
    ∃ s, k = .text s := by
  obtain ⟨e, he, rfl⟩ := List.mem_map.mp hk
  exact h e he

/-- Entries in another order are found as before. -/
theorem lookup_perm (hd : (Entries.keys es).Nodup) (h : es.Perm fs) (s : Text) :
    es.lookup (.text s) = fs.lookup (.text s) := by
  have hd' : (Entries.keys fs).Nodup := (h.map _).nodup_iff.mp hd
  refine Option.ext fun v => ?_
  rw [← mem_iff_lookup hd, ← mem_iff_lookup hd', h.mem_iff]

end

/-! ### When values are equal -/

section

variable {α β : Type} {R : α → β → Prop} {x : Option α} {y : Option β}

theorem exists_of_rel_some {a : α} (h : Option.Rel R (some a) y) : ∃ b, y = some b ∧ R a b := by
  cases h with
  | some h => exact ⟨_, rfl, h⟩

theorem exists_iff_of_rel (h : Option.Rel R x y) : (∃ a, x = some a) ↔ ∃ b, y = some b := by
  cases h <;> simp

end

theorem and_then_eq_true {a b : Except ValueFault Bool} :
    (do if ← a then b else return false) = Except.ok true ↔ a = .ok true ∧ b = .ok true := by
  cases a with
  | error fault => simp [bind, Except.bind]
  | ok x => cases x <;> simp [bind, Except.bind, pure, Except.pure]

theorem equalItems_iff {xs ys : List Value} :
    xs.length = ys.length ∧ equalItems xs ys = .ok true ↔ ∀ i : Nat, Option.Rel Agrees xs[i]? ys[i]? := by
  induction xs generalizing ys with
  | nil =>
    cases ys with
    | nil => simp [equalItems]
    | cons y ys =>
      refine iff_of_false (by simp) fun h => ?_
      have hfirst := h 0
      cases hfirst
  | cons x xs ih =>
    cases ys with
    | nil =>
      refine iff_of_false (by simp) fun h => ?_
      have hfirst := h 0
      cases hfirst
    | cons y ys =>
      have hfirst : Option.Rel Agrees (some x) (some y) ↔ x.equal y = .ok true := by
        constructor
        · intro h
          cases h with
          | some h => exact h
        · exact fun h => .some h
      rw [← Nat.and_forall_add_one]
      simp only [List.getElem?_cons_zero, List.getElem?_cons_succ]
      rw [← ih, hfirst, equalItems, and_then_eq_true, List.length_cons, List.length_cons,
        Nat.add_right_cancel_iff]
      exact and_left_comm

theorem equalEntries_iff {es fs : List (Key × Value)} :
    equalEntries es fs = .ok true ↔ ∀ e ∈ es, ∃ w, fs.lookup e.1 = some w ∧ e.2.Agrees w := by
  induction es with
  | nil => simp [equalEntries]
  | cons e es ih =>
    obtain ⟨k, v⟩ := e
    rw [List.forall_mem_cons, ← ih, equalEntries]
    dsimp only
    cases hl : fs.lookup k with
    | none => simp
    | some w =>
      dsimp only
      rw [and_then_eq_true]
      simp [Agrees]

/-- Two values that agree, and how. -/
inductive Matches : Value → Value → Prop
  | null : Matches .null .null
  | bool (b : Bool) : Matches (.bool b) (.bool b)
  | number {a b : Number} : a.eq b = true → Matches (.number a) (.number b)
  | text (s : Text) : Matches (.text s) (.text s)
  | list {xs ys : List Value} : (∀ i : Nat, Option.Rel Agrees xs[i]? ys[i]?) → Matches (.list xs) (.list ys)
  | map {es fs : List (Key × Value)} :
      (∀ s, Option.Rel Agrees (es.lookup (.text s)) (fs.lookup (.text s))) → Matches (.map es) (.map fs)

theorem agrees_list_iff {xs ys : List Value} :
    (list xs).Agrees (list ys) ↔ ∀ i : Nat, Option.Rel Agrees xs[i]? ys[i]? := by
  rw [← equalItems_iff, Agrees, equal]
  by_cases h : xs.length = ys.length <;> simp [h]

/-- Maps of one size in which the keys of one are keys of the other have the same keys. -/
theorem keys_perm {es fs : List (Key × Value)} (he : (Entries.keys es).Nodup)
    (hlength : es.length = fs.length) (hsub : Entries.keys es ⊆ Entries.keys fs) :
    (Entries.keys es).Perm (Entries.keys fs) := by
  apply (he.subperm hsub).perm_of_length_le
  rw [Entries.keys, Entries.keys, List.length_map, List.length_map]
  exact Nat.le_of_eq hlength.symm

/-- Maps agree if they are of one size and the values under the keys of one agree with those in the other. -/
theorem agrees_map_iff_length {es fs : List (Key × Value)} :
    (map es).Agrees (map fs) ↔
      es.length = fs.length ∧ ∀ e ∈ es, ∃ w, fs.lookup e.1 = some w ∧ e.2.Agrees w := by
  rw [Agrees, equal, ← equalEntries_iff]
  by_cases hkeys : sameKeys es fs = true
  · have hlength : es.length = fs.length := by
      rw [sameKeys, Bool.and_eq_true, beq_iff_eq] at hkeys
      exact hkeys.1
    rw [if_pos hkeys]
    exact (and_iff_right hlength).symm
  · rw [if_neg hkeys]
    apply iff_of_false (by simp)
    rintro ⟨hlength, hentries⟩
    apply hkeys
    rw [sameKeys, Bool.and_eq_true, beq_iff_eq, List.all_eq_true]
    refine ⟨hlength, fun e he => ?_⟩
    obtain ⟨w, hw, -⟩ := equalEntries_iff.mp hentries e he
    rw [hw]
    rfl

theorem agrees_map_iff {es fs : List (Key × Value)} (he : (Entries.keys es).Nodup)
    (hf : (Entries.keys fs).Nodup) (hes : ∀ e ∈ es, ∃ s, e.1 = .text s)
    (hfs : ∀ e ∈ fs, ∃ s, e.1 = .text s) :
    (map es).Agrees (map fs) ↔
      ∀ s, Option.Rel Agrees (es.lookup (.text s)) (fs.lookup (.text s)) := by
  rw [agrees_map_iff_length]
  constructor
  · rintro ⟨hlength, hentries⟩ s
    have hsub : Entries.keys es ⊆ Entries.keys fs := by
      intro k hk
      obtain ⟨e, hmem, rfl⟩ := List.mem_map.mp hk
      obtain ⟨t, ht⟩ := hes e hmem
      obtain ⟨w, hw, -⟩ := hentries e hmem
      rw [ht] at hw ⊢
      exact (text_mem_keys_iff hf).mpr ⟨w, hw⟩
    have hperm := keys_perm he hlength hsub
    cases hv : es.lookup (.text s) with
    | some v =>
      obtain ⟨w, hw, hagrees⟩ := hentries _ (mem_of_lookup hv)
      rw [hw]
      exact .some hagrees
    | none =>
      cases hw : fs.lookup (.text s) with
      | none => exact .none
      | some w =>
        have hkey := hperm.mem_iff.mpr ((text_mem_keys_iff hf).mpr ⟨w, hw⟩)
        obtain ⟨v, hv'⟩ := (text_mem_keys_iff he).mp hkey
        cases hv.symm.trans hv'
  · intro h
    have hkeys : ∀ k, k ∈ Entries.keys es ↔ k ∈ Entries.keys fs := by
      intro k
      by_cases hk : ∃ s, k = .text s
      · obtain ⟨s, rfl⟩ := hk
        rw [text_mem_keys_iff he, text_mem_keys_iff hf]
        exact exists_iff_of_rel (h s)
      · exact iff_of_false (fun hmem => hk (text_of_mem_keys hes hmem)) fun hmem =>
          hk (text_of_mem_keys hfs hmem)
    have hperm := (List.perm_ext_iff_of_nodup he hf).mpr hkeys
    refine ⟨by simpa [Entries.keys] using hperm.length_eq, fun e hmem => ?_⟩
    obtain ⟨k, v⟩ := e
    obtain ⟨s, rfl⟩ := hes _ hmem
    have hrel := h s
    rw [lookup_of_mem he hmem] at hrel
    exact exists_of_rel_some hrel

/-- How ordinary values agree. -/
theorem agrees_iff_matches {v w : Value} (hv : v.Ordinary) (hw : w.Ordinary) : v.Agrees w ↔ Matches v w := by
  constructor
  · intro h
    cases hv with
    | null =>
      cases hw with
      | null => exact .null
      | _ => simp [Agrees, equal] at h
    | bool a =>
      cases hw with
      | bool b =>
        obtain rfl : a = b := by simpa [Agrees, equal] using h
        exact .bool a
      | _ => simp [Agrees, equal] at h
    | number =>
      cases hw with
      | number => exact .number (by simpa [Agrees, equal] using h)
      | _ => simp [Agrees, equal] at h
    | text s =>
      cases hw with
      | text t =>
        obtain rfl : s = t := by simpa [Agrees, equal] using h
        exact .text s
      | _ => simp [Agrees, equal] at h
    | list =>
      cases hw with
      | list => exact .list (agrees_list_iff.mp h)
      | _ => simp [Agrees, equal] at h
    | map he hes _ =>
      cases hw with
      | map hf hfs _ => exact .map ((agrees_map_iff he hf hes hfs).mp h)
      | _ => simp [Agrees, equal] at h
  · intro h
    cases h with
    | null => simp [Agrees, equal]
    | bool b => simp [Agrees, equal]
    | number h => simp [Agrees, equal, h]
    | text s => simp [Agrees, equal]
    | list h => exact agrees_list_iff.mpr h
    | map h =>
      cases hv with
      | map he hes _ =>
        cases hw with
        | map hf hfs _ => exact (agrees_map_iff he hf hes hfs).mpr h

/-! ### An equivalence -/

section

variable {x y z : Option Value}

theorem rel_refl (h : ∀ v, x = some v → v.Agrees v) : Option.Rel Agrees x x := by
  cases x with
  | none => exact .none
  | some v => exact .some (h v rfl)

theorem rel_symm (h : ∀ v w, x = some v → y = some w → v.Agrees w → w.Agrees v)
    (hxy : Option.Rel Agrees x y) : Option.Rel Agrees y x := by
  cases hxy with
  | none => exact .none
  | some hvw => exact .some (h _ _ rfl rfl hvw)

theorem rel_trans
    (h : ∀ u v w, x = some u → y = some v → z = some w → u.Agrees v → v.Agrees w → u.Agrees w)
    (hxy : Option.Rel Agrees x y) (hyz : Option.Rel Agrees y z) : Option.Rel Agrees x z := by
  cases hxy with
  | none =>
    cases hyz
    exact .none
  | some huv =>
    cases hyz with
    | some hvw => exact .some (h _ _ _ rfl rfl rfl huv hvw)

end

theorem Ordinary.agrees_refl {v : Value} (h : v.Ordinary) : v.Agrees v := by
  induction h with
  | null | bool | text => simp [Agrees, equal]
  | @number n hn =>
    have heq : n.eq n = true := by
      rw [Number.isNaN, Option.isNone_eq_false_iff, Option.isSome_iff_exists] at hn
      obtain ⟨place, hplace⟩ := hn
      exact Number.eq_iff.mpr ⟨place, hplace, hplace⟩
    simpa [Agrees, equal] using heq
  | list _ ih => exact agrees_list_iff.mpr fun i => rel_refl fun v hv => ih v (List.mem_of_getElem? hv)
  | map hd hkeys _ ih =>
    exact (agrees_map_iff hd hd hkeys hkeys).mpr fun s => rel_refl fun v hv => ih _ (mem_of_lookup hv)

theorem Ordinary.agrees_symm {v w : Value} (hv : v.Ordinary) (hw : w.Ordinary) (h : v.Agrees w) :
    w.Agrees v := by
  induction hv generalizing w with
  | null => cases (agrees_iff_matches .null hw).mp h; exact h
  | bool b => cases (agrees_iff_matches (.bool b) hw).mp h; exact h
  | text s => cases (agrees_iff_matches (.text s) hw).mp h; exact h
  | number hn =>
    cases (agrees_iff_matches (.number hn) hw).mp h with
    | number heq =>
      obtain ⟨place, ha, hb⟩ := Number.eq_iff.mp heq
      simpa [Agrees, equal] using Number.eq_iff.mpr ⟨place, hb, ha⟩
  | list hxs ih =>
    cases (agrees_iff_matches (.list hxs) hw).mp h with
    | list hrel =>
      cases hw with
      | list hys =>
        refine agrees_list_iff.mpr fun i => rel_symm (fun v w hv hw hvw => ?_) (hrel i)
        exact ih v (List.mem_of_getElem? hv) (hys w (List.mem_of_getElem? hw)) hvw
  | map he hes hvs ih =>
    cases (agrees_iff_matches (.map he hes hvs) hw).mp h with
    | map hrel =>
      cases hw with
      | map hf hfs hws =>
        refine (agrees_map_iff hf he hfs hes).mpr fun s => rel_symm (fun v w hv hw hvw => ?_) (hrel s)
        exact ih _ (mem_of_lookup hv) (hws _ (mem_of_lookup hw)) hvw

theorem Ordinary.agrees_trans {u v w : Value} (hu : u.Ordinary) (hv : v.Ordinary) (hw : w.Ordinary)
    (huv : u.Agrees v) (hvw : v.Agrees w) : u.Agrees w := by
  -- the first value decides how the second matches it, and the second how the third does
  induction hu generalizing v w with
  | null => cases (agrees_iff_matches .null hv).mp huv; exact hvw
  | bool b => cases (agrees_iff_matches (.bool b) hv).mp huv; exact hvw
  | text s => cases (agrees_iff_matches (.text s) hv).mp huv; exact hvw
  | number hn =>
    cases (agrees_iff_matches (.number hn) hv).mp huv with
    | number hab =>
      cases (agrees_iff_matches hv hw).mp hvw with
      | number hbc =>
        obtain ⟨place, ha, hb⟩ := Number.eq_iff.mp hab
        obtain ⟨place', hb', hc⟩ := Number.eq_iff.mp hbc
        cases hb.symm.trans hb'
        simpa [Agrees, equal] using Number.eq_iff.mpr ⟨place, ha, hc⟩
  | list hxs ih =>
    cases (agrees_iff_matches (.list hxs) hv).mp huv with
    | list hxy =>
      cases (agrees_iff_matches hv hw).mp hvw with
      | list hyz =>
        cases hv with
        | list hys =>
          cases hw with
          | list hzs =>
            refine agrees_list_iff.mpr fun i => rel_trans (fun u v w hu hv hw => ?_) (hxy i) (hyz i)
            exact ih u (List.mem_of_getElem? hu) (hys v (List.mem_of_getElem? hv))
              (hzs w (List.mem_of_getElem? hw))
  | map he hes hvs ih =>
    cases (agrees_iff_matches (.map he hes hvs) hv).mp huv with
    | map hxy =>
      cases (agrees_iff_matches hv hw).mp hvw with
      | map hyz =>
        cases hv with
        | map _ _ hys =>
          cases hw with
          | map hg hgs hzs =>
            refine (agrees_map_iff he hg hes hgs).mpr fun s =>
              rel_trans (fun u v w hu hv hw => ?_) (hxy s) (hyz s)
            exact ih _ (mem_of_lookup hu) (hys _ (mem_of_lookup hv)) (hzs _ (mem_of_lookup hw))

/-! ### Paths respect it -/

theorem getD_agrees {x y : Option Value} (h : Option.Rel Agrees x y) :
    (x.getD .null).Agrees (y.getD .null) := by
  cases h with
  | none => exact Ordinary.null.agrees_refl
  | some h => exact h

theorem Ordinary.item {items : List Value} (h : ∀ v ∈ items, v.Ordinary) (n : Int) :
    (item items n).Ordinary := by
  rw [Value.item]
  by_cases hn : n < 0
  · rw [if_pos hn]
    exact .null
  · rw [if_neg hn]
    cases hi : items[n.toNat]? with
    | none => exact .null
    | some v => exact h v (List.mem_of_getElem? hi)

theorem item_agrees {xs ys : List Value} (h : ∀ i : Nat, Option.Rel Agrees xs[i]? ys[i]?) (n : Int) :
    (item xs n).Agrees (item ys n) := by
  rw [item, item]
  by_cases hn : n < 0
  · rw [if_pos hn, if_pos hn]
    exact Ordinary.null.agrees_refl
  · rw [if_neg hn, if_neg hn]
    exact getD_agrees (h n.toNat)

/-- A step leads from an ordinary value to an ordinary value. -/
theorem Ordinary.step {v : Value} (h : v.Ordinary) (s : Segment) : (v.step s).Ordinary := by
  cases h with
  | list hitems =>
    cases s with
    | index n => exact Ordinary.item hitems n
    | key | other => exact .null
  | @map es _ _ hvalues =>
    cases s with
    | key name =>
      rw [Value.step]
      cases hl : es.lookup (.text name) with
      | none => exact .null
      | some v => exact hvalues _ (mem_of_lookup hl)
    | index | other => exact .null
  | _ => exact .null

theorem Matches.step {v w : Value} (h : Matches v w) (s : Segment) : (v.step s).Agrees (w.step s) := by
  have hnull : Value.null.Agrees .null := Ordinary.null.agrees_refl
  cases h with
  | list hrel =>
    cases s with
    | index n => exact item_agrees hrel n
    | key | other => exact hnull
  | map hrel =>
    cases s with
    | key name => exact getD_agrees (hrel name)
    | index | other => exact hnull
  | _ => exact hnull

/-- Values that agree cannot be told apart by a path. -/
theorem Ordinary.agrees_traverse {v w : Value} (hv : v.Ordinary) (hw : w.Ordinary) (h : v.Agrees w)
    (path : List Segment) : (v.traverse path).Agrees (w.traverse path) := by
  induction path generalizing v w with
  | nil => exact h
  | cons s path ih => exact ih (hv.step s) (hw.step s) (((agrees_iff_matches hv hw).mp h).step s)

/-! ### The order of keys -/

/-- The second value is the first one with the entries of one map, at some depth, in another order. -/
inductive Reorders : Value → Value → Prop
  | here {es fs : List (Key × Value)} : es.Perm fs → Reorders (.map es) (.map fs)
  | item (before after : List Value) {v w : Value} : Reorders v w →
      Reorders (.list (before ++ v :: after)) (.list (before ++ w :: after))
  | entry (before after : List (Key × Value)) (k : Key) {v w : Value} : Reorders v w →
      Reorders (.map (before ++ (k, v) :: after)) (.map (before ++ (k, w) :: after))

section

variable {es fs : List (Key × Value)} {v w : Value}

theorem Ordinary.map_perm (h : (Value.map es).Ordinary) (hperm : es.Perm fs) :
    (Value.map fs).Ordinary ∧ (Value.map es).Agrees (.map fs) := by
  cases h with
  | map hd hkeys hvalues =>
    have hd' : (Entries.keys fs).Nodup := (hperm.map _).nodup_iff.mp hd
    have hkeys' : ∀ e ∈ fs, ∃ s, e.1 = .text s := fun e he => hkeys e (hperm.mem_iff.mpr he)
    refine ⟨.map hd' hkeys' fun e he => hvalues e (hperm.mem_iff.mpr he), ?_⟩
    refine (agrees_map_iff hd hd' hkeys hkeys').mpr fun s => ?_
    rw [← lookup_perm hd hperm s]
    exact rel_refl fun v hv => (hvalues _ (mem_of_lookup hv)).agrees_refl

theorem Ordinary.list_replace {before after : List Value} (h : (Value.list (before ++ v :: after)).Ordinary)
    (hvw : v.Ordinary → w.Ordinary ∧ v.Agrees w) :
    (Value.list (before ++ w :: after)).Ordinary ∧
      (Value.list (before ++ v :: after)).Agrees (.list (before ++ w :: after)) := by
  cases h with
  | list hitems =>
    obtain ⟨hbefore, hrest⟩ := List.forall_mem_append.mp hitems
    obtain ⟨hv, hafter⟩ := List.forall_mem_cons.mp hrest
    obtain ⟨hw, hvw⟩ := hvw hv
    constructor
    · exact .list (List.forall_mem_append.mpr ⟨hbefore, List.forall_mem_cons.mpr ⟨hw, hafter⟩⟩)
    · refine agrees_list_iff.mpr fun i => ?_
      rw [List.getElem?_append, List.getElem?_append]
      by_cases hi : i < before.length
      · rw [if_pos hi, if_pos hi]
        exact rel_refl fun u hu => (hbefore u (List.mem_of_getElem? hu)).agrees_refl
      · rw [if_neg hi, if_neg hi, List.getElem?_cons, List.getElem?_cons]
        by_cases hzero : i - before.length = 0
        · rw [if_pos hzero, if_pos hzero]
          exact .some hvw
        · rw [if_neg hzero, if_neg hzero]
          exact rel_refl fun u hu => (hafter u (List.mem_of_getElem? hu)).agrees_refl

theorem Ordinary.map_replace {before after : List (Key × Value)} {k : Key}
    (h : (Value.map (before ++ (k, v) :: after)).Ordinary) (hvw : v.Ordinary → w.Ordinary ∧ v.Agrees w) :
    (Value.map (before ++ (k, w) :: after)).Ordinary ∧
      (Value.map (before ++ (k, v) :: after)).Agrees (.map (before ++ (k, w) :: after)) := by
  cases h with
  | map hd hkeys hvalues =>
    obtain ⟨hbefore, hrest⟩ := List.forall_mem_append.mp hvalues
    obtain ⟨hv, hafter⟩ := List.forall_mem_cons.mp hrest
    obtain ⟨hw, hvw⟩ := hvw hv
    have hd' : (Entries.keys (before ++ (k, w) :: after)).Nodup := by
      simpa [Entries.keys] using hd
    have hkeys' : ∀ e ∈ before ++ (k, w) :: after, ∃ s, e.1 = .text s := by
      obtain ⟨hkbefore, hkrest⟩ := List.forall_mem_append.mp hkeys
      obtain ⟨hk, hkafter⟩ := List.forall_mem_cons.mp hkrest
      exact List.forall_mem_append.mpr ⟨hkbefore, List.forall_mem_cons.mpr ⟨hk, hkafter⟩⟩
    constructor
    · exact .map hd' hkeys'
        (List.forall_mem_append.mpr ⟨hbefore, List.forall_mem_cons.mpr ⟨hw, hafter⟩⟩)
    · refine (agrees_map_iff hd hd' hkeys hkeys').mpr fun s => ?_
      rw [List.lookup_append, List.lookup_append]
      cases hs : before.lookup (.text s) with
      | some u => exact .some (hbefore _ (mem_of_lookup hs)).agrees_refl
      | none =>
        rw [Option.none_or, Option.none_or, List.lookup_cons, List.lookup_cons]
        cases Key.text s == k with
        | true => exact .some hvw
        | false => exact rel_refl fun u hu => (hafter _ (mem_of_lookup hu)).agrees_refl

theorem Ordinary.reorders (hv : v.Ordinary) (h : Reorders v w) : w.Ordinary ∧ v.Agrees w := by
  induction h with
  | here hperm => exact hv.map_perm hperm
  | item before after _ ih => exact hv.list_replace ih
  | entry before after k _ ih => exact hv.map_replace ih

/-- However many maps are reordered, the value agrees with the one at the start. -/
theorem Ordinary.reordered (hv : v.Ordinary) (h : Relation.ReflTransGen Reorders v w) :
    w.Ordinary ∧ v.Agrees w := by
  induction h with
  | refl => exact ⟨hv, hv.agrees_refl⟩
  | tail _ hlast ih =>
    obtain ⟨hu, hvu⟩ := ih
    obtain ⟨hw, huw⟩ := hu.reorders hlast
    exact ⟨hw, hv.agrees_trans hu hw hvu huw⟩

end

/-! ### Comparisons -/

/-- Comparisons come out alike if the values to compare agree. -/
theorem equal_eq_of_agrees {v v' w w' : Value} (hv : v.Ordinary) (hv' : v'.Ordinary) (hw : w.Ordinary)
    (hw' : w'.Ordinary) (hvv : v.Agrees v') (hww : w.Agrees w') : v'.equal w' = v.equal w := by
  obtain ⟨b, hb⟩ := exists_equal_of_closed hv.closed hw.closed
  obtain ⟨b', hb'⟩ := exists_equal_of_closed hv'.closed hw'.closed
  have hiff : v'.Agrees w' ↔ v.Agrees w := by
    constructor
    · exact fun h => hv.agrees_trans hv' hw hvv (hv'.agrees_trans hw' hw h (hw.agrees_symm hw' hww))
    · exact fun h => hv'.agrees_trans hv hw' (hv.agrees_symm hv' hvv) (hv.agrees_trans hw hw' h hww)
  rw [Agrees, Agrees, hb, hb', Except.ok.injEq, Except.ok.injEq] at hiff
  rw [hb, hb', Bool.eq_iff_iff.mpr hiff]

/-- Comparing ordinary values always has an answer, which is the same from both sides, and values are equal as
by an equivalence. The answer does not depend on the order of keys, at any depth. Where a path leads in equal
values, the values are equal again. -/
theorem equal_congruence :
    Equivalence (fun v w : { v : Value // v.Ordinary } => v.1.equal w.1 = .ok true) ∧
      ∀ v w : Value, v.Ordinary → w.Ordinary →
        (∃ b, v.equal w = .ok b ∧ w.equal v = .ok b) ∧
          (∀ v' w', Relation.ReflTransGen Reorders v v' → Relation.ReflTransGen Reorders w w' →
            v'.equal w' = v.equal w) ∧
          (v.equal w = .ok true → ∀ path, (v.traverse path).equal (w.traverse path) = .ok true) := by
  refine ⟨⟨fun v => v.2.agrees_refl, fun {v w} => v.2.agrees_symm w.2,
    fun {u v w} => u.2.agrees_trans v.2 w.2⟩, fun v w hv hw => ⟨?_, ?_, hv.agrees_traverse hw⟩⟩
  · obtain ⟨b, hb⟩ := exists_equal_of_closed hv.closed hw.closed
    obtain ⟨b', hb'⟩ := exists_equal_of_closed hw.closed hv.closed
    have hiff : w.Agrees v ↔ v.Agrees w := ⟨hw.agrees_symm hv, hv.agrees_symm hw⟩
    rw [Agrees, Agrees, hb, hb', Except.ok.injEq, Except.ok.injEq] at hiff
    exact ⟨b, hb, by rw [hb', Bool.eq_iff_iff.mpr hiff]⟩
  · intro v' w' hvv hww
    obtain ⟨hv', hvv⟩ := hv.reordered hvv
    obtain ⟨hw', hww⟩ := hw.reordered hww
    exact equal_eq_of_agrees hv hv' hw hw' hvv hww

/-- A purchase, with its amount in either form of numbers. -/
def ofPurchase (amount : Number) : Value :=
  .map [(.text "amount", .number amount), (.text "tags", .list [.text "new"])]

/-- One as an integer is one as a binary number, also in a map with its keys turned around. -/
theorem equal_congruence_ofPurchase :
    let v := ofPurchase (.int 1)
    let one := Number.float (.finite false Double.unitsPerOne)
    let w := Value.map [(.text "tags", .list [.text "new"]), (.text "amount", .number one)]
    v.Ordinary ∧ w.Ordinary ∧ v.equal w = .ok true ∧
      ∀ path, (v.traverse path).equal (w.traverse path) = .ok true := by
  intro v one w
  have hordinary : ∀ n : Number, n.isNaN = false → (ofPurchase n).Ordinary := by
    intro n hn
    have hkeys : Text.ofString "amount" ≠ Text.ofString "tags" := by decide
    refine .map (by simp [Entries.keys, hkeys]) (by simp) ?_
    simp only [List.forall_mem_cons]
    refine ⟨.number hn, .list ?_, by simp⟩
    simp only [List.forall_mem_cons]
    exact ⟨.text _, by simp⟩
  have hv : v.Ordinary := hordinary _ rfl
  have hone : (ofPurchase one).Ordinary := hordinary _ rfl
  have hreordered : Relation.ReflTransGen Reorders (ofPurchase one) w := .single (.here (.swap _ _ _))
  have hw : w.Ordinary := (hone.reordered hreordered).1
  have hsame : v.equal (ofPurchase one) = .ok true := by
    have hsize : (Number.int 1).eq one = true := by simp [Number.eq, Number.rank?, Double.signedUnits, one]
    have htags : (Text.ofString "tags" == Text.ofString "amount") = false := by decide
    simp [v, ofPurchase, equal, sameKeys, equalEntries, equalItems, hsize, htags, List.lookup_cons, bind,
      Except.bind]
  have hequal : v.equal w = .ok true := by
    rw [← hsame]
    exact (equal_congruence.2 v (ofPurchase one) hv hone).2.1 v w .refl hreordered
  exact ⟨hv, hw, hequal, (equal_congruence.2 v w hv hw).2.2 hequal⟩

end Value

end Rulebook
