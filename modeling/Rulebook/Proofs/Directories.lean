import Mathlib.Data.List.Basic
import Rulebook.Directory
import Rulebook.Proofs.Entries

set_option autoImplicit false

/-!
Directories in which a file is replaced. A path that was replaced is read as its new text, and it can be
replaced again.
-/

namespace Rulebook.Directory

variable {d : Directory} {path text : String}

/-- The directory with a file under a name. -/
def withFile (d : Directory) (name text : String) : Directory :=
  { d with files := Entries.put d.files name text }

section

variable {name : String} {place location : Location}

theorem isFolder_withFile (h : d.isFolder place = true) : (d.withFile name text).isFolder place = true := by
  simp only [isFolder, Bool.or_eq_true] at h ⊢
  refine h.imp_right fun hany => ?_
  obtain ⟨f, hf, hprefix⟩ := List.any_eq_true.mp hany
  exact List.any_eq_true.mpr ⟨f, Entries.mem_keys_put.mpr (.inr hf), hprefix⟩

/-- A file is no folder that a path leads through. -/
theorem isFolder_withFile_self (h : d.isFolder place = false) :
    (d.withFile place.text text).isFolder place = false := by
  simp only [isFolder, Bool.or_eq_false_iff] at h ⊢
  refine ⟨h.1, List.any_eq_false.mpr fun f hf => ?_⟩
  rcases Entries.mem_keys_put.mp hf with rfl | hf
  · intro hprefix
    have hlength := (List.isPrefixOf_iff_prefix.mp hprefix).length_le
    have hslash : "/".toList.length = 1 := rfl
    rw [String.toList_append, List.length_append, hslash] at hlength
    omega
  · exact List.any_eq_false.mp h.2 f hf

theorem step_withFile {step : String} (h : d.step place step = .ok location) :
    (d.withFile name text).step place step = .ok location := by
  unfold Directory.step at h ⊢
  split at h
  · cases h
  · next hfolder =>
    rw [Bool.not_eq_true, Bool.not_eq_false'] at hfolder
    rwa [isFolder_withFile hfolder]

theorem foldlM_step_withFile {steps : List String} (h : steps.foldlM d.step place = .ok location) :
    steps.foldlM (d.withFile name text).step place = .ok location := by
  induction steps generalizing place with
  | nil => exact h
  | cons step steps ih =>
    rw [List.foldlM_cons] at h ⊢
    cases hstep : d.step place step with
    | error fault =>
      rw [hstep] at h
      cases h
    | ok next =>
      rw [hstep] at h
      rw [step_withFile hstep]
      exact ih h

theorem follow_withFile {steps : List String} (h : d.follow path steps = .ok location) :
    (d.withFile name text).follow path steps = .ok location := by
  unfold follow at h ⊢
  split at h
  · cases h
  · split at h
    · cases h
    · next hnul hlong =>
      rw [if_neg hnul, if_neg hlong]
      exact foldlM_step_withFile h

end

theorem read_eq_ok {location : Location} (hlocate : d.locate path = .ok location)
    (hfolder : d.isFolder location = false) (hfile : Entries.get? d.files location.text = some text) :
    d.read path = .ok text := by
  simp only [read, hlocate, hfolder, hfile]
  rfl

/-- What can be replaced is no folder, and the path to it ends in no slash, so reading leads to the same
place. -/
theorem replaceable_eq_ok_iff {location : Location} :
    d.replaceable path = .ok location ↔
      d.locate path = .ok location ∧ d.isFolder location = false ∧
        (Path.steps path).reverse.dropWhile (· == "") = (Path.steps path).reverse := by
  unfold replaceable locate
  dsimp only
  constructor
  · intro h
    split at h
    · cases h
    · next found hfollow =>
      split at h
      · cases h
      · next hfolder =>
        split at h
        · cases h
        · next hlength =>
          cases h
          have hsteps : (Path.steps path).reverse.dropWhile (· == "") = (Path.steps path).reverse := by
            refine (List.dropWhile_suffix _).eq_of_length_le ?_
            simpa using hlength
          rw [hsteps, List.reverse_reverse] at hfollow
          exact ⟨hfollow, by simpa using hfolder, hsteps⟩
  · rintro ⟨hfollow, hfolder, hsteps⟩
    rw [hsteps, List.reverse_reverse, hfollow]
    simp [hfolder]

theorem replaceable_withFile {location : Location} (h : d.replaceable path = .ok location) :
    (d.withFile location.text text).replaceable path = .ok location := by
  obtain ⟨hlocate, hfolder, hsteps⟩ := replaceable_eq_ok_iff.mp h
  exact replaceable_eq_ok_iff.mpr ⟨follow_withFile hlocate, isFolder_withFile_self hfolder, hsteps⟩

/-- A path at which a file can be replaced by way of a temporary one, unless the disk is full. -/
structure Writable (d : Directory) (path : String) : Prop where
  temporary : ∃ folder, d.temporaryFolder path = .ok folder
  replaceable : ∃ location, d.replaceable path = .ok location

theorem Writable.within (h : d.Writable path) (clock : String) (full : Bool) :
    { d with clock, full }.Writable path :=
  ⟨h.temporary, h.replaceable⟩

/-- A file that cannot be replaced changes nothing, and one that is replaced is put where the path leads. At
a writable path only a full disk keeps a file from being replaced. -/
theorem replace_cases (d : Directory) (path text : String) :
    (∃ fault, d.replace path text = (.error fault, d) ∧
        (d.Writable path → fault = .diskFull ∧ d.full = true)) ∨
      ∃ location, d.replaceable path = .ok location ∧ d.Writable path ∧
        d.replace path text = (.ok (), d.withFile location.text text) := by
  rw [replace_eq]
  cases htemporary : d.temporaryFolder path with
  | error fault =>
    refine .inl ⟨fault, rfl, fun hw => ?_⟩
    obtain ⟨folder, hfolder⟩ := hw.temporary
    cases htemporary.symm.trans hfolder
  | ok folder =>
    by_cases hfull : d.full = true
    · exact .inl ⟨.diskFull, if_pos hfull, fun _ => ⟨rfl, hfull⟩⟩
    · simp only [if_neg hfull]
      cases hreplaceable : d.replaceable path with
      | error fault =>
        refine .inl ⟨fault, rfl, fun hw => ?_⟩
        obtain ⟨location, hlocation⟩ := hw.replaceable
        cases hreplaceable.symm.trans hlocation
      | ok location => exact .inr ⟨location, rfl, ⟨⟨folder, htemporary⟩, location, hreplaceable⟩, rfl⟩

/-- A file that was replaced is read as its new text. -/
theorem read_withFile {location : Location} (h : d.replaceable path = .ok location) :
    (d.withFile location.text text).read path = .ok text := by
  obtain ⟨hlocate, hfolder, -⟩ := replaceable_eq_ok_iff.mp h
  refine read_eq_ok (follow_withFile hlocate) (isFolder_withFile_self hfolder) ?_
  rw [withFile, Entries.get?_put, if_pos rfl]

/-- A file that was replaced can be replaced again. -/
theorem Writable.withFile {location : Location} (hw : d.Writable path)
    (h : d.replaceable path = .ok location) : (d.withFile location.text text).Writable path := by
  obtain ⟨folder, hfolder⟩ := hw.temporary
  exact ⟨⟨folder, foldlM_step_withFile hfolder⟩, location, replaceable_withFile h⟩

end Rulebook.Directory
