import Rulebook.Proofs.Identifiers
import Rulebook.Proofs.Stores

set_option autoImplicit false

/-!
What a store finds and what it retains. With other identifiers left it finds the same rulesets, but for the
identifiers that the document lacks. What is saved is retained: it is found from then on, whatever identifiers
are left. If some change cannot be saved, none can, and for the same reason.
-/

namespace Rulebook

open Text

namespace Entries

variable {κ α : Type} [DecidableEq κ] {es : Entries κ α} {k : κ}

theorem get?_last (h : k ∉ es.keys) (v : α) : get? (es ++ [(k, v)]) k = some v := by
  rw [← put_of_not_mem h v, get?_put, if_pos rfl]

theorem put_last (h : k ∉ es.keys) (v w : α) : put (es ++ [(k, v)]) k w = es ++ [(k, w)] := by
  rw [← put_of_not_mem h v, put_put_self, put_of_not_mem h w]

end Entries

namespace Rulesets

variable {rs rs' : Rulesets}

/-- The outputs of the rules of a ruleset. -/
def outputs (rs : Rulesets) (name : String) : List String :=
  ((Entries.get? rs (ofString name)).getD []).map Rule.output

theorem outputs_withoutIds (rs : Rulesets) (name : String) : rs.withoutIds.outputs name = rs.outputs name := by
  rw [outputs, outputs, get?_withoutIds]
  cases Entries.get? rs (ofString name) with
  | none => rfl
  | some rules =>
    rw [Option.map_some, Option.getD_some, Option.getD_some, List.map_map]
    rfl

theorem outputs_congr (h : rs'.withoutIds = rs.withoutIds) (name : String) :
    rs'.outputs name = rs.outputs name := by
  rw [← outputs_withoutIds, h, outputs_withoutIds]

theorem not_mem_keys_congr (h : rs'.withoutIds = rs.withoutIds) {key : Text} (hkey : key ∉ Entries.keys rs) :
    key ∉ Entries.keys rs' := by
  rw [← keys_withoutIds, h, keys_withoutIds]
  exact hkey

end Rulesets

/-- If a file cannot be replaced, no text can take its place. -/
theorem Directory.exists_fault {d : Directory} {path : String} (h : ¬(d.Writable path ∧ d.full = false)) :
    ∃ fault, ∀ text, d.replace path text = (.error fault, d) := by
  cases htemporary : d.temporaryFolder path with
  | error fault => exact ⟨fault, fun text => by rw [d.replace_eq, htemporary]⟩
  | ok folder =>
    by_cases hfull : d.full = true
    · refine ⟨.diskFull, fun text => ?_⟩
      rw [d.replace_eq, htemporary]
      exact if_pos hfull
    · cases hreplaceable : d.replaceable path with
      | error fault =>
        refine ⟨fault, fun text => ?_⟩
        rw [d.replace_eq, htemporary, hreplaceable]
        exact if_neg hfull
      | ok location => exact absurd ⟨⟨⟨folder, htemporary⟩, location, hreplaceable⟩, by simpa using hfull⟩ h

namespace Store

variable {s : Store} {rs rs' : Rulesets} {name : String} {fault : FileFault}

/-- Rulesets that the store finds if it has some identifiers left. -/
def Finds (s : Store) (rs : Rulesets) : Prop := ∃ ids left, { s with ids }.load = .ok (rs, left)

/-- The rulesets that the store finds whatever identifiers it has left. -/
def Retains (s : Store) (rs : Rulesets) : Prop := ∀ ids, ∃ left, { s with ids }.load = .ok (rs, left)

/-- Nothing keeps changes from being saved. -/
def Saves (s : Store) : Prop :=
  ∀ path, s.backing = .document path → s.directory.Writable path ∧ s.directory.full = false

/-- Every change fails to be saved, for this reason. -/
def Loses (s : Store) (fault : FileFault) : Prop :=
  ∀ ids changed, { s with ids }.save changed = (.error (.file fault), { s with ids })

theorem Retains.eq (h : s.Retains rs) (h' : s.Finds rs') : rs' = rs := by
  obtain ⟨ids, left', hleft'⟩ := h'
  obtain ⟨left, hleft⟩ := h ids
  cases hleft.symm.trans hleft'
  rfl

theorem Retains.finds (h : s.Retains rs) : s.Finds rs := by
  obtain ⟨left, hleft⟩ := h s.ids
  exact ⟨s.ids, left, hleft⟩

theorem Finds.withIds (h : s.Finds rs) (ids : Ids) : { s with ids }.Finds rs := h

theorem Loses.withIds (h : s.Loses fault) (ids : Ids) : { s with ids }.Loses fault := h

/-- The identifiers that are left now lead to rulesets that are the same but for identifiers. -/
theorem Finds.load (h : s.Finds rs) :
    ∃ (rs' : Rulesets) (left : Ids), s.load = .ok (rs', left) ∧ s.Finds rs' ∧
      rs'.withoutIds = rs.withoutIds := by
  obtain ⟨first, left, h⟩ := h
  obtain ⟨backing, d, ids⟩ := s
  cases backing with
  | memory kept =>
    cases h
    exact ⟨rs, ids, rfl, ⟨ids, ids, rfl⟩, rfl⟩
  | document path =>
    simp only [Finds, Store.load] at h ⊢
    split at h
    · next text hread =>
      obtain ⟨rs', left', hload, hsame⟩ := Rulesets.ofText_withIds (mapError_eq_ok.mp h) ids
      exact ⟨rs', left', mapError_eq_ok.mpr hload, ⟨ids, left', mapError_eq_ok.mpr hload⟩, hsame⟩
    · cases h
    · cases h
      exact ⟨[], ids, rfl, ⟨ids, ids, rfl⟩, rfl⟩

theorem Finds.regular {path : String} (h : s.Finds rs) (hpath : s.backing = .document path) : rs.Regular := by
  obtain ⟨ids, left, h⟩ := h
  simp only [Store.load, hpath] at h
  split at h
  · exact Rulesets.regular_of_ofText (mapError_eq_ok.mp h)
  · cases h
  · cases h
    exact Rulesets.regular_nil

/-- Rulesets that are saved are found from then on. -/
theorem Finds.save (h : s.Finds rs) (hw : s.Saves) (name : String) (rules : List Rule) :
    ∃ s', s.save (Entries.put rs (ofString name) rules) = (.ok (), s') ∧
      s'.Retains (Entries.put rs (ofString name) rules) ∧ s'.Saves := by
  obtain ⟨backing, d, ids⟩ := s
  cases backing with
  | memory kept => exact ⟨_, rfl, fun ids => ⟨ids, rfl⟩, fun _ heq => by cases heq⟩
  | document path =>
    obtain ⟨hwritable, hfull⟩ := hw path rfl
    rcases save_cases path d ids (Entries.put rs (ofString name) rules) with
      ⟨fault, -, hfault⟩ | ⟨location, -, hsave, hread, hwritable'⟩
    · cases hfull.symm.trans (hfault hwritable).2
    · have hregular := (h.regular rfl).put name rules
      refine ⟨_, hsave, ?_, ?_⟩
      · exact (keeps_document hread hregular (Rulesets.ofText_toText hregular d.clock) ids).load
      · intro _ heq
        cases heq
        exact ⟨hwritable', hfull⟩

/-- If something keeps a change from being saved, it keeps every change from it. -/
theorem exists_loses (h : ¬s.Saves) : ∃ fault, s.Loses fault := by
  obtain ⟨backing, d, others⟩ := s
  cases backing with
  | memory kept => exact absurd (fun _ heq => by cases heq) h
  | document path =>
    have hreplace : ∃ fault, ∀ text, d.replace path text = (.error fault, d) := by
      apply Directory.exists_fault
      intro hsaved
      apply h
      intro _ heq
      cases heq
      exact hsaved
    obtain ⟨fault, hfault⟩ := hreplace
    refine ⟨fault, fun ids changed => ?_⟩
    simp only [Store.save, hfault]
    rfl

/-! ### Operations of the store -/

theorem Finds.get (h : s.Finds rs) (name : String) :
    ∃ (rs' : Rulesets) (ids : Ids), rs'.withoutIds = rs.withoutIds ∧
      s.get name = (.ok ((Entries.get? rs' (ofString name)).getD []), { s with ids }) := by
  obtain ⟨rs', left, hload, -, hsame⟩ := h.load
  refine ⟨rs', left, hsame, ?_⟩
  rw [Store.get, Store.query, hload]

/-- A ruleset under a new name stands behind the others. -/
theorem Finds.create (h : s.Finds rs) (hname : ofString name ∉ Entries.keys rs) (hw : s.Saves)
    (rules : List Rule) :
    ∃ rs' s', s.Finds rs' ∧ rs'.withoutIds = rs.withoutIds ∧ s.create name rules = (.ok rules, s') ∧
      s'.Retains (rs' ++ [(ofString name, rules)]) := by
  obtain ⟨rs', left, hload, hfinds, hsame⟩ := h.load
  have hnew := Rulesets.not_mem_keys_congr hsame hname
  have hget : Entries.get? rs' (ofString name) = none := Entries.get?_eq_none_iff.mpr hnew
  obtain ⟨s', hsave, hretains, -⟩ := (hfinds.withIds left).save hw name rules
  rw [Entries.put_of_not_mem hnew] at hretains
  refine ⟨rs', s', hfinds, hsame, ?_, hretains⟩
  simp only [Store.create, hload, hget, hsave]
  rfl

theorem Finds.append (h : s.Finds rs) (hw : s.Saves) (name : String) (rule : Rule) :
    ∃ rs' s', s.Finds rs' ∧ rs'.withoutIds = rs.withoutIds ∧ s.append name rule = (.ok rule, s') ∧
      s'.Retains (Entries.put rs' (ofString name)
        ((Entries.get? rs' (ofString name)).getD [] ++ [rule])) ∧ s'.Saves := by
  obtain ⟨rs', left, hload, hfinds, hsame⟩ := h.load
  obtain ⟨s', hsave, hretains, hw'⟩ := (hfinds.withIds left).save hw name
    ((Entries.get? rs' (ofString name)).getD [] ++ [rule])
  refine ⟨rs', s', hfinds, hsame, ?_, hretains, hw'⟩
  simp only [Store.append, hload, hsave]
  rfl

/-- A change that is lost leaves all but the supply of identifiers as it was. -/
theorem Loses.create (hl : s.Loses fault) (h : s.Finds rs) (hname : ofString name ∉ Entries.keys rs)
    (rules : List Rule) : ∃ ids, s.create name rules = (.error (.file fault), { s with ids }) := by
  obtain ⟨rs', left, hload, -, hsame⟩ := h.load
  have hget : Entries.get? rs' (ofString name) = none :=
    Entries.get?_eq_none_iff.mpr (Rulesets.not_mem_keys_congr hsame hname)
  refine ⟨left, ?_⟩
  simp only [Store.create, hload, hget, hl left]
  rfl

theorem Loses.append (hl : s.Loses fault) (h : s.Finds rs) (name : String) (rule : Rule) :
    ∃ ids, s.append name rule = (.error (.file fault), { s with ids }) := by
  obtain ⟨rs', left, hload, -, -⟩ := h.load
  refine ⟨left, ?_⟩
  simp only [Store.append, hload, hl left]
  rfl

end Store

end Rulebook
