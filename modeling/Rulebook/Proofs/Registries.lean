import Mathlib.Data.List.Pairwise
import Mathlib.Data.List.Sort
import Mathlib.Data.String.Basic
import Rulebook.Eval
import Rulebook.Proofs.Entries

set_option autoImplicit false

/-!
Registries of functions. A list of functions makes a registry exactly if no name or alias occurs twice in it; then
each name belongs to one function, and all views of the registry show the same names and the same functions. So does
the table in which functions are filed label by label.
-/

namespace Rulebook

/-- An element is the first that repeats an earlier one. -/
def RepeatsFirst (name : String) (names : List String) : Prop :=
  ∃ before after, names = before ++ name :: after ∧ before.Nodup ∧ name ∈ before

theorem firstRepeated_eq_some_iff {seen names : List String} {name : String} :
    firstRepeated seen names = some name ↔
      ∃ before after, names = before ++ name :: after ∧ (before.Nodup ∧ ∀ s ∈ before, s ∉ seen) ∧
        (name ∈ before ∨ name ∈ seen) := by
  induction names generalizing seen with
  | nil => simp [firstRepeated]
  | cons s names ih =>
    rw [firstRepeated]
    split
    case isTrue hs =>
      constructor
      · rintro ⟨⟩
        exact ⟨[], names, rfl, by simp, .inr hs⟩
      · rintro ⟨before, after, hnames, ⟨-, hnew⟩, -⟩
        cases before with
        | nil => rw [(List.cons.inj hnames).1]
        | cons t before =>
          obtain ⟨rfl, -⟩ := List.cons.inj hnames
          exact absurd hs (hnew s List.mem_cons_self)
    case isFalse hs =>
      rw [ih]
      constructor
      · rintro ⟨before, after, rfl, ⟨hnodup, hnew⟩, hmem⟩
        refine ⟨s :: before, after, rfl, ⟨List.nodup_cons.mpr ⟨?_, hnodup⟩, ?_⟩, ?_⟩
        · exact fun h => hnew s h List.mem_cons_self
        · simp only [List.mem_cons] at hnew ⊢
          grind
        · simp only [List.mem_cons] at hmem ⊢
          grind
      · rintro ⟨before, after, hnames, ⟨hnodup, hnew⟩, hmem⟩
        cases before with
        | nil =>
          obtain ⟨rfl, -⟩ := List.cons.inj hnames
          exact absurd (hmem.resolve_left List.not_mem_nil) hs
        | cons t before =>
          obtain ⟨rfl, rfl⟩ := List.cons.inj hnames
          obtain ⟨hfresh, hnodup⟩ := List.nodup_cons.mp hnodup
          refine ⟨before, after, rfl, ⟨hnodup, ?_⟩, ?_⟩
          · simp only [List.mem_cons] at hnew ⊢
            grind
          · simp only [List.mem_cons] at hmem ⊢
            grind

theorem firstRepeated_nil_eq_some_iff {names : List String} {name : String} :
    firstRepeated [] names = some name ↔ RepeatsFirst name names := by
  rw [firstRepeated_eq_some_iff]
  simp [RepeatsFirst]

theorem firstRepeated_nil_eq_none_iff {names : List String} : firstRepeated [] names = none ↔ names.Nodup := by
  simp [firstRepeated_eq_none_iff]

namespace Registry

/-! ### Which lists make a registry -/

section

variable {fs : List Function} {r : Registry} {name : String}

theorem ofList_eq_ok_iff : ofList fs = .ok r ↔ (fs.flatMap Function.labels).Nodup ∧ r.functions = fs := by
  rw [ofList]
  split
  case h_1 hnone =>
    constructor
    · rintro ⟨⟩
      exact ⟨firstRepeated_nil_eq_none_iff.mp hnone, rfl⟩
    · rintro ⟨-, rfl⟩
      rfl
  case h_2 hsome =>
    constructor
    · rintro ⟨⟩
    · rintro ⟨hnodup, -⟩
      rw [firstRepeated_nil_eq_none_iff.mpr hnodup] at hsome
      cases hsome

theorem ofList_eq_error_iff : ofList fs = .error name ↔ RepeatsFirst name (fs.flatMap Function.labels) := by
  rw [ofList, ← firstRepeated_nil_eq_some_iff]
  split
  case h_1 hnone =>
    constructor
    · rintro ⟨⟩
    · intro hsome
      rw [hnone] at hsome
      cases hsome
  case h_2 first hsome => simp [hsome]

theorem exists_ofList_iff : (∃ r, ofList fs = .ok r) ↔ (fs.flatMap Function.labels).Nodup := by
  simp only [ofList_eq_ok_iff]
  exact ⟨fun ⟨_, h, _⟩ => h, fun h => ⟨⟨fs, h⟩, h, rfl⟩⟩

end

/-! ### Views of a registry -/

section

variable (r : Registry) {f g : Function} {name : String}

theorem eq_of_mem_labels (hf : f ∈ r.functions) (hg : g ∈ r.functions) (hfname : name ∈ f.labels)
    (hgname : name ∈ g.labels) : f = g := by
  have hdisjoint := (List.nodup_flatMap.mp r.distinct).2
  have : Std.Symm (Function.onFun List.Disjoint Function.labels) := ⟨fun _ _ h => List.disjoint_symm h⟩
  by_contra hne
  exact hdisjoint.forall hf hg hne hfname hgname

theorem find?_eq_some_iff : r.find? name = some f ↔ f ∈ r.functions ∧ name ∈ f.labels := by
  constructor
  · intro h
    exact ⟨List.mem_of_find?_eq_some h, by simpa using List.find?_some h⟩
  · rintro ⟨hf, hname⟩
    obtain ⟨g, hg⟩ : ∃ g, r.find? name = some g :=
      Option.isSome_iff_exists.mp (List.find?_isSome.mpr ⟨f, hf, by simpa using hname⟩)
    have hgname : name ∈ g.labels := by simpa using List.find?_some hg
    rw [hg, r.eq_of_mem_labels (List.mem_of_find?_eq_some hg) hf hgname hname]

theorem find?_eq_none_iff : r.find? name = none ↔ ∀ f ∈ r.functions, name ∉ f.labels := by
  simp [find?]

theorem contains_iff : r.contains name = true ↔ ∃ f ∈ r.functions, name ∈ f.labels := by
  simp [contains, Option.isSome_iff_exists, find?_eq_some_iff]

theorem names_perm : r.names.Perm (r.functions.flatMap Function.labels) := List.mergeSort_perm _ _

theorem names_increasing : r.names.Pairwise (· < ·) := by
  have hsorted : r.names.Pairwise (· ≤ ·) := List.pairwise_mergeSort' (· ≤ ·) _
  have hnodup : r.names.Nodup := r.names_perm.nodup_iff.mpr r.distinct
  exact (hsorted.and hnodup).imp fun h => lt_of_le_of_ne h.1 h.2

theorem sorted_perm : r.sorted.Perm r.functions := List.mergeSort_perm _ _

/-- No two functions have the same name. -/
theorem nodup_ownNames : (r.functions.map Function.name).Nodup := by
  obtain ⟨hlabels, hdisjoint⟩ := List.nodup_flatMap.mp r.distinct
  rw [List.Nodup, List.pairwise_map]
  refine hdisjoint.imp fun {f g} hfg hname => ?_
  exact hfg (a := f.name) List.mem_cons_self (hname ▸ List.mem_cons_self)

theorem sorted_increasing : r.sorted.Pairwise fun f g => f.name < g.name := by
  have hsorted : r.sorted.Pairwise fun f g => f.name ≤ g.name := by
    refine (List.pairwise_mergeSort ?_ ?_ r.functions).imp fun h => of_decide_eq_true h
    · intro a b d hab hbd
      exact decide_eq_true (le_trans (of_decide_eq_true hab) (of_decide_eq_true hbd))
    · intro a b
      simpa using le_total a.name b.name
  have hnodup : (r.sorted.map Function.name).Nodup := (r.sorted_perm.map _).nodup_iff.mpr r.nodup_ownNames
  exact (hsorted.and (List.pairwise_map.mp hnodup)).imp fun h => lt_of_le_of_ne h.1 h.2

theorem labels_sorted_perm : (r.sorted.flatMap Function.labels).Perm r.names :=
  (r.sorted_perm.flatMap_right _).trans r.names_perm.symm

theorem eval_call_alias (c : Context) (args : List Expr) (hf : f ∈ r.functions) (hname : name ∈ f.labels) :
    eval r c (.call name args) = eval r c (.call f.name args) := by
  have hown : r.find? f.name = some f := r.find?_eq_some_iff.mpr ⟨hf, List.mem_cons_self⟩
  rw [eval, eval, r.find?_eq_some_iff.mpr ⟨hf, hname⟩, hown]

end

/-- What a registry of these functions offers. -/
structure Offers (r : Registry) (fs : List Function) : Prop where
  /-- A name is found exactly at the function that declares it. -/
  found : ∀ name f, r.find? name = some f ↔ f ∈ fs ∧ name ∈ f.labels
  single : ∀ name, ∀ f ∈ fs, ∀ g ∈ fs, name ∈ f.labels → name ∈ g.labels → f = g
  missing : ∀ name, r.find? name = none ↔ ∀ f ∈ fs, name ∉ f.labels
  contains : ∀ name, r.contains name = (r.find? name).isSome
  declared : ∀ name, r.contains name = true ↔ ∃ f ∈ fs, name ∈ f.labels
  names : r.names.Perm (fs.flatMap Function.labels)
  increasing : r.names.Pairwise (· < ·)
  functions : r.sorted.Perm fs
  inOrder : r.sorted.Pairwise fun f g => f.name < g.name
  labels : (r.sorted.flatMap Function.labels).Perm r.names
  /-- A call by an alias is a call by the name. -/
  calls : ∀ f ∈ fs, ∀ name ∈ f.labels, ∀ (c : Context) (args : List Expr),
    eval r c (.call name args) = eval r c (.call f.name args)

theorem offers_functions (r : Registry) : r.Offers r.functions where
  found _ _ := r.find?_eq_some_iff
  single _ _ hf _ hg := r.eq_of_mem_labels hf hg
  missing _ := r.find?_eq_none_iff
  contains _ := rfl
  declared _ := r.contains_iff
  names := r.names_perm
  increasing := r.names_increasing
  functions := r.sorted_perm
  inOrder := r.sorted_increasing
  labels := r.labels_sorted_perm
  calls _ hf _ hname c args := r.eval_call_alias c args hf hname

/-- A list of functions makes a registry exactly if all names and aliases are distinct, and is refused with the first
one that repeats an earlier one otherwise. All views of the registry agree with the list. -/
theorem ofList_lawful (fs : List Function) :
    ((∃ r, ofList fs = .ok r) ↔ (fs.flatMap Function.labels).Nodup) ∧
    (∀ name, ofList fs = .error name ↔ RepeatsFirst name (fs.flatMap Function.labels)) ∧
    ∀ r, ofList fs = .ok r → r.Offers fs := by
  refine ⟨exists_ofList_iff, fun name => ofList_eq_error_iff, fun r h => ?_⟩
  obtain ⟨-, rfl⟩ := ofList_eq_ok_iff.mp h
  exact r.offers_functions

/-- The built-in functions make a registry. They make none together with a function whose alias is the name of another
one, or its own name. -/
theorem ofList_lawful_builtin :
    ofList Function.builtin = .ok builtin ∧ builtin.Offers Function.builtin ∧
      ofList (Function.builtin ++ [⟨"SIZE", .exactly 1, "", ["LENGTH", "SIZE"], Function.length⟩]) =
        .error "LENGTH" ∧
      ofList [⟨"SIZE", .exactly 1, "", ["SIZE"], Function.length⟩] = .error "SIZE" := by
  have hbuiltin : ofList Function.builtin = .ok builtin := rfl
  obtain ⟨-, -, hoffers⟩ := ofList_lawful Function.builtin
  exact ⟨hbuiltin, hoffers _ hbuiltin, rfl, rfl⟩

/-! ### The table of a registry -/

theorem firstRepeated_congr {seen seen' : List String} (h : ∀ s, s ∈ seen ↔ s ∈ seen') (names : List String) :
    firstRepeated seen names = firstRepeated seen' names := by
  induction names generalizing seen seen' with
  | nil => rfl
  | cons s names ih =>
    have hmore : ∀ t, t ∈ s :: seen ↔ t ∈ s :: seen' := by simp [h]
    simp only [firstRepeated, h, ih hmore]

theorem firstRepeated_append (seen names more : List String) :
    firstRepeated seen (names ++ more) = (firstRepeated seen names).or (firstRepeated (names ++ seen) more) := by
  induction names generalizing seen with
  | nil => rfl
  | cons s names ih =>
    have hseen : ∀ t, t ∈ names ++ s :: seen ↔ t ∈ s :: names ++ seen := by simp [or_left_comm]
    rw [List.cons_append, firstRepeated, firstRepeated]
    split
    · rfl
    · rw [ih, firstRepeated_congr hseen]

/-- Functions under all their labels. -/
def labelled (fs : List Function) : Table := fs.flatMap fun f => f.labels.map fun label => (label, f)

theorem keys_labelled (fs : List Function) : Entries.keys (labelled fs) = fs.flatMap Function.labels := by
  simp [Entries.keys, labelled, List.map_flatMap, Function.comp_def]

namespace Table

/-- A function is filed under its labels until one is taken. -/
theorem file_eq (t : Table) (f : Function) (labels : List String) :
    t.file f labels =
      match firstRepeated (Entries.keys t) labels with
      | none => .ok (t ++ labels.map fun label => (label, f))
      | some label => .error label := by
  induction labels generalizing t with
  | nil => simp [file, firstRepeated]
  | cons label labels ih =>
    rw [file, firstRepeated]
    by_cases hlabel : label ∈ Entries.keys t
    · rw [if_pos ((Entries.isSome_get?_iff t label).mpr hlabel), if_pos hlabel]
    · have hkeys : ∀ s, s ∈ Entries.keys (t ++ [(label, f)]) ↔ s ∈ label :: Entries.keys t := by
        simp [Entries.keys, or_comm]
      rw [if_neg (mt (Entries.isSome_get?_iff t label).mp hlabel), if_neg hlabel, Entries.put_of_not_mem hlabel, ih,
        firstRepeated_congr hkeys]
      simp

theorem fileAll_eq (t : Table) (fs : List Function) :
    t.fileAll fs =
      match firstRepeated (Entries.keys t) (fs.flatMap Function.labels) with
      | none => .ok (t ++ labelled fs)
      | some label => .error label := by
  induction fs generalizing t with
  | nil => simp [fileAll, firstRepeated, labelled]
  | cons f fs ih =>
    rw [fileAll, file_eq, List.flatMap_cons, firstRepeated_append]
    cases hlabels : firstRepeated (Entries.keys t) f.labels with
    | some label => rfl
    | none =>
      have hkeys : ∀ s, s ∈ Entries.keys (t ++ f.labels.map fun label => (label, f)) ↔
          s ∈ f.labels ++ Entries.keys t := by
        simp [Entries.keys, or_comm]
      have hall : (t ++ f.labels.map fun label => (label, f)) ++ labelled fs = t ++ labelled (f :: fs) := by
        rw [List.append_assoc]
        rfl
      change fileAll (t ++ f.labels.map fun label => (label, f)) fs = _
      rw [ih, firstRepeated_congr hkeys, hall]
      rfl

/-- The aliases of a function do not file it again under its own name. -/
theorem foldl_put_labels (seen : Table) (f : Function) :
    (f.labels.map fun label => (label, f)).foldl (fun seen e => Entries.put seen e.2.name e.2) seen =
      Entries.put seen f.name f := by
  have hagain : ∀ aliases : List String,
      (aliases.map fun label => (label, f)).foldl (fun seen e => Entries.put seen e.2.name e.2)
        (Entries.put seen f.name f) = Entries.put seen f.name f := by
    intro aliases
    induction aliases with
    | nil => rfl
    | cons _ aliases ih => rw [List.map_cons, List.foldl_cons, Entries.put_put_self, ih]
  rw [Function.labels, List.map_cons, List.foldl_cons, hagain]

theorem foldl_put_labelled {seen : Table} {fs : List Function}
    (h : (Entries.keys seen ++ fs.map Function.name).Nodup) :
    (labelled fs).foldl (fun seen e => Entries.put seen e.2.name e.2) seen =
      seen ++ fs.map fun f => (f.name, f) := by
  induction fs generalizing seen with
  | nil => simp [labelled]
  | cons f fs ih =>
    have hname : f.name ∉ Entries.keys seen := fun hmem =>
      List.disjoint_of_nodup_append h hmem List.mem_cons_self
    have hlabelled : labelled (f :: fs) = (f.labels.map fun label => (label, f)) ++ labelled fs := rfl
    rw [hlabelled, List.foldl_append, foldl_put_labels, Entries.put_of_not_mem hname, ih]
    · simp
    · simpa [Entries.keys] using h

/-- Functions with different names are filed under them once each. -/
theorem byName_labelled {fs : List Function} (h : (fs.map Function.name).Nodup) :
    (labelled fs).byName = fs.map fun f => (f.name, f) :=
  foldl_put_labelled h

end Table

variable (r : Registry)

theorem get?_labelled (name : String) : Entries.get? (labelled r.functions) name = r.find? name := by
  have hkeys : (Entries.keys (labelled r.functions)).Nodup := by
    rw [keys_labelled]
    exact r.distinct
  ext f
  rw [← Entries.mem_iff_get? hkeys, find?_eq_some_iff]
  simp [labelled, and_comm]

theorem names_labelled : (labelled r.functions).names = r.names := by
  rw [Table.names, keys_labelled, names]

theorem functions_labelled : (labelled r.functions).functions = r.sorted := by
  have hkeys : Entries.keys (r.functions.map fun f => (f.name, f)) = r.functions.map Function.name := by
    simp [Entries.keys, Function.comp_def]
  have hnames : Table.names (r.functions.map fun f => (f.name, f)) = r.sorted.map Function.name := by
    rw [Table.names, hkeys, sorted, List.map_mergeSort]
    exact fun _ _ _ _ => rfl
  have hget : ∀ f ∈ r.sorted, Entries.get? (r.functions.map fun f => (f.name, f)) f.name = some f := by
    intro f hf
    refine Entries.get?_of_mem (hkeys ▸ r.nodup_ownNames) (List.mem_map_of_mem ?_)
    exact r.sorted_perm.mem_iff.mp hf
  rw [Table.functions, Table.byName_labelled r.nodup_ownNames, hnames, List.filterMap_map]
  exact (List.filterMap_congr hget).trans List.filterMap_some

/-- What is filed label by label is accepted like the list, or refused for the same label, and it shows the same. -/
theorem table_shows (fs : List Function) :
    Table.ofList fs = (ofList fs).map (fun r => labelled r.functions) ∧
      ∀ r : Registry, (∀ name, Entries.get? (labelled r.functions) name = r.find? name) ∧
        (labelled r.functions).names = r.names ∧ (labelled r.functions).functions = r.sorted := by
  refine ⟨?_, fun r => ⟨r.get?_labelled, r.names_labelled, r.functions_labelled⟩⟩
  have hstart : Entries.keys ([] : Table) = [] := rfl
  rw [Table.ofList, Table.fileAll_eq, hstart]
  cases h : ofList fs with
  | ok r =>
    obtain ⟨hnodup, rfl⟩ := ofList_eq_ok_iff.mp h
    rw [firstRepeated_nil_eq_none_iff.mpr hnodup]
    rfl
  | error name =>
    rw [firstRepeated_nil_eq_some_iff.mpr (ofList_eq_error_iff.mp h)]
    rfl

end Registry

end Rulebook
