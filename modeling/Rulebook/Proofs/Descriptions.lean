import Mathlib.Data.List.Forall2
import Rulebook.CommandLine
import Rulebook.Http.Form
import Rulebook.Proofs.Rulesets

set_option autoImplicit false

/-!
Documents that describe a ruleset or its execution. Over HTTP and in the files of a job the same is read from them; what
else they hold does not matter.
-/

namespace Rulebook

open Text

theorem Json.exists_obj_of_get? {document v : Json} {name : String} (h : document.get? name = some v) :
    ∃ members, document = .obj members := by
  cases document with
  | obj members => exact ⟨members, rfl⟩
  | _ => cases h

theorem Checked.optional_of_get?_none {α : Type} {members : List (Text × Json)} {name : String} {fallback : α}
    (h : Json.get? (.obj members) name = none) (read : Json → Checked α) :
    optional members name fallback read = .ok fallback := by
  rw [Json.get?] at h
  rw [optional, h]
  rfl

theorem Checked.all_of_forall₂ {α : Type} {read : Json → Checked α} {xs : List α} {items : List Json}
    (h : List.Forall₂ (fun x item => read item = .ok x) xs items) (start : Nat) :
    all start (items.map read) = .ok xs := by
  induction h generalizing start with
  | nil => rfl
  | cons hx _ ih =>
    rw [List.map_cons, all, hx, ih]
    rfl

/-- The attitude to nulls that is asked for: they are errors, or the settings decide. -/
def nullChoice (strict : Bool) : Option Bool := if strict then some false else none

namespace Http

/-- An item holds a rule: a text and an output variable that is not empty. -/
structure RuleForm.DescribedBy (g : RuleForm) (item : Json) : Prop where
  rule : item.get? "rule" = some (.str g.rule)
  output : item.get? "output_variable" = some (.str (ofString g.output))
  output_ne : g.output ≠ ""

/-- A document holds a ruleset: a name that is not empty, and at least one rule. -/
structure RulesetForm.DescribedBy (f : RulesetForm) (document : Json) : Prop where
  name : document.get? "name" = some (.str (ofString f.name))
  name_ne : f.name ≠ ""
  rules : ∃ items, document.get? "rules" = some (.arr items) ∧ List.Forall₂ RuleForm.DescribedBy f.rules items
  rules_ne : f.rules ≠ []

/-- A document asks for the execution of a ruleset on some facts. It says that nulls are errors or says nothing of
them. -/
structure ExecutionForm.Asks (name : String) (data : List (Text × Json)) (strict : Bool) (document : Json) :
    Prop where
  name : document.get? "ruleset_name" = some (.str (ofString name))
  data : document.get? "input_data" = some (.obj data)
  nullSafe : document.get? "null_safe" = if strict then some (.bool false) else none

/-! ### Forms -/

section

variable {f : RulesetForm} {g : RuleForm} {document item : Json}

theorem RuleForm.DescribedBy.ofJson_eq (h : g.DescribedBy item) : RuleForm.ofJson item = .ok g := by
  obtain ⟨members, rfl⟩ := Json.exists_obj_of_get? h.rule
  have hrule : Checked.required members "rule" .text = .ok g.rule := Checked.required_of_get? h.rule rfl
  rw [RuleForm.ofJson, hrule, Checked.required_of_get? h.output (Checked.nonEmptyText_ofString h.output_ne)]
  rfl

theorem RulesetForm.DescribedBy.ofJson_eq (h : f.DescribedBy document) : RulesetForm.ofJson document = .ok f := by
  obtain ⟨members, rfl⟩ := Json.exists_obj_of_get? h.name
  obtain ⟨items, hitems, hrules⟩ := h.rules
  have hread : RulesetForm.rulesOfJson (.arr items) = .ok f.rules :=
    Checked.all_of_forall₂ (hrules.imp fun _ _ hg => hg.ofJson_eq) 0
  rw [RulesetForm.ofJson, Checked.required_of_get? h.name (Checked.nonEmptyText_ofString h.name_ne),
    Checked.optional_of_get? hitems hread]
  rfl

theorem ExecutionForm.Asks.ofJson_eq {name : String} {data : List (Text × Json)} {strict : Bool}
    (h : ExecutionForm.Asks name data strict document) :
    ExecutionForm.ofJson document = .ok ⟨name, data, nullChoice strict⟩ := by
  obtain ⟨members, rfl⟩ := Json.exists_obj_of_get? h.name
  have hnullSafe : Checked.optional members "null_safe" none ExecutionForm.nullSafeOfJson =
      .ok (nullChoice strict) := by
    cases strict with
    | true => exact Checked.optional_of_get? h.nullSafe rfl
    | false => exact Checked.optional_of_get?_none h.nullSafe _
  have hname : Checked.required members "ruleset_name" .text = .ok (ofString name) :=
    Checked.required_of_get? h.name rfl
  have hdata : Checked.optional members "input_data" [] ExecutionForm.dataOfJson = .ok data :=
    Checked.optional_of_get? h.data rfl
  rw [ExecutionForm.ofJson, hname, hdata, hnullSafe]
  rfl

end

end Http

/-! ### Bodies -/

/-- A text that starts with a brace on a line of its own is read as it stands. -/
theorem Text.reread_of_brace {s : String} {t : Text} (h : ofString s = .char '\x7b' :: .char '\n' :: t) :
    Text.reread s = some (ofString s) := by
  obtain ⟨_, _, hs, hbrace, hrest⟩ := List.map_eq_cons_iff.mp h
  obtain ⟨_, cs, rfl, hbreak, -⟩ := List.map_eq_cons_iff.mp hrest
  cases hbrace
  cases hbreak
  have hbytes : ∃ more, Text.utf8Bytes s = 0x7b :: 0xa :: more := by
    rw [Text.utf8Bytes, hs, List.flatMap_cons, List.flatMap_cons, List.map_append, List.map_append]
    exact ⟨_, rfl⟩
  obtain ⟨more, hmore⟩ := hbytes
  have hdetect : Encoding.detect (0x7b :: 0xa :: more) = .utf8 := by
    rcases more with _ | ⟨c, _ | ⟨d, rest⟩⟩ <;> rfl
  simp only [Text.reread, hmore, hdetect, ofString, hs]
  rfl

/-- What is written with indentation can be sent as a body. -/
theorem Http.document_indented {members : List (Text × Json)} (hne : members ≠ [])
    (h : Json.Regular Json.IsText (.obj members)) :
    document (some (Json.obj members).indented) = .ok (some (.obj members)) := by
  obtain ⟨first, more, rfl⟩ := List.exists_cons_of_ne_nil hne
  have hbrace : ∃ t, ofString (Json.obj (first :: more)).indented = .char '\x7b' :: .char '\n' :: t := by
    rw [Json.indented, Json.indentedAt, Json.indentedMembers, Json.ofString_bracketed '\x7b' '\x7d']
    exact ⟨_, rfl⟩
  obtain ⟨t, ht⟩ := hbrace
  have hread := Json.read_indented h
  generalize (Json.obj (first :: more)).indented = s at ht hread
  have hs : s ≠ "" := by
    rintro rfl
    cases ht
  simp only [document, Option.getD_some, Text.reread_of_brace ht, hread]

/-! ### Files -/

namespace CommandLine

open Http

variable {f : RulesetForm} {document : Json}

/-- The files of a job hold a ruleset and facts. -/
structure Job.Holds (job : Job) (d : Directory) (f : RulesetForm) (data : List (Text × Json)) : Prop where
  ruleset : ∃ path document, job.ruleset = some path ∧ readDocument d path = .ok document ∧ f.DescribedBy document
  facts : ∃ path, job.facts = some path ∧ readDocument d path = .ok (.obj data)

end CommandLine

end Rulebook
