import Rulebook.Proofs.Documents
import Rulebook.Proofs.Names
import Rulebook.Proofs.Values
import Rulebook.Store.Document

set_option autoImplicit false

/-!
Documents of rulesets. The rulesets are read back as they were written, with the same names, rules and
identifiers in the same order. The rulesets of a document depend on the supply of identifiers only where a
rule has none.
-/

namespace Rulebook

open Json Text

/-- A record: the names of its members are distinct strings. -/
theorem Json.regular_record (leaf : Json → Prop) (fields : List (String × Json))
    (hnames : (fields.map (·.1)).Nodup) (h : ∀ f ∈ fields, Regular leaf f.2) :
    Regular leaf (.obj (fields.map fun f => (ofString f.1, f.2))) := by
  refine .obj ?_ ?_ ?_
  · have hkeys : Entries.keys (fields.map fun f => (ofString f.1, f.2)) =
        (fields.map (·.1)).map ofString := by
      simp [Entries.keys]
    rw [hkeys]
    exact hnames.map fun _ _ => ofString_injective
  · rintro m hm
    obtain ⟨f, -, rfl⟩ := List.mem_map.mp hm
    exact unpaired_ofChars _
  · rintro m hm
    obtain ⟨f, hf, rfl⟩ := List.mem_map.mp hm
    exact h f hf

theorem Json.regular_ofString (s : String) : Regular IsText (.str (ofString s)) :=
  .leaf (.str (unpaired_ofChars _))

theorem Json.regular_label (l : Label) : Regular IsText (.str l.text) := .leaf (.str l.unpaired)

theorem Text.ofString_inj {s t : String} : ofString s = ofString t ↔ s = t :=
  ⟨ofString_injective, congrArg ofString⟩

theorem Label.ofString_inj {s t : String} : Label.ofString s = Label.ofString t ↔ s = t :=
  ⟨fun h => Text.ofString_injective (congrArg Label.text h), congrArg ofString⟩

namespace Checked

variable {α : Type} {members : List (Text × Json)} {name : String} {v : Json} {read : Json → Checked α}
  {x : α}

theorem optional_of_get? {fallback : α} (h : Json.get? (.obj members) name = some v) (hv : read v = .ok x) :
    optional members name fallback read = .ok x := by
  rw [Json.get?] at h
  simp only [optional, h, hv]
  rfl

theorem required_of_get? (h : Json.get? (.obj members) name = some v) (hv : read v = .ok x) :
    required members name read = .ok x := by
  rw [Json.get?] at h
  simp only [required, h, hv]
  rfl

/-- A text without halves side by side is a label. -/
theorem label_of_unpaired {s : Text} (h : s.Unpaired) : label (.str s) = .ok ⟨s, h⟩ := dif_pos h

theorem nonEmptyText_ofString {s : String} (h : s ≠ "") : nonEmptyText (.str (ofString s)) = .ok ⟨s, h⟩ := by
  change nonEmpty (ofString s) = _
  rw [nonEmpty, toString?_ofString]
  exact dif_pos h

end Checked

namespace Rule

theorem regular_toJson (r : Rule) : Regular IsText r.toJson := by
  refine regular_record IsText [("rule_id", .str r.id.text), ("ruleset", .str r.ruleset.text),
    ("condition", .str r.condition), ("transformation", .str r.transformation),
    ("output_variable", .str r.output)] (by simp) ?_
  simp [regular_ofString, regular_label]

theorem ofJson_toJson (freshId : String) (r : Rule) : ofJson freshId r.toJson = .ok r := by
  have hid : r.toJson.get? "rule_id" = some (.str r.id.text) := by
    simp [toJson, Json.get?, Entries.get?_cons]
  have hruleset : r.toJson.get? "ruleset" = some (.str r.ruleset.text) := by
    simp [toJson, Json.get?, Entries.get?_cons, ofString_inj]
  have hcondition : r.toJson.get? "condition" = some (.str r.condition) := by
    simp [toJson, Json.get?, Entries.get?_cons, ofString_inj]
  have htransformation : r.toJson.get? "transformation" = some (.str r.transformation) := by
    simp [toJson, Json.get?, Entries.get?_cons, ofString_inj]
  have houtput : r.toJson.get? "output_variable" = some (.str r.output) := by
    simp [toJson, Json.get?, Entries.get?_cons, ofString_inj]
  rw [toJson] at *
  rw [ofJson, Checked.optional_of_get? hid (Checked.label_of_unpaired r.id.unpaired),
    Checked.optional_of_get? hruleset (Checked.label_of_unpaired r.ruleset.unpaired),
    Checked.required_of_get? hcondition (Checked.nonEmptyText_ofString r.condition_ne),
    Checked.required_of_get? htransformation (Checked.nonEmptyText_ofString r.transformation_ne),
    Checked.required_of_get? houtput (Checked.nonEmptyText_ofString r.output_ne)]
  rfl

/-- A rule that has an identifier does not get another one. -/
theorem ofJson_congr {v : Json} (h : (v.get? "rule_id").isSome = true) (first second : String) :
    ofJson first v = ofJson second v := by
  obtain ⟨id, hid⟩ := Option.isSome_iff_exists.mp h
  cases v with
  | obj members =>
    rw [Json.get?] at hid
    simp only [ofJson, Checked.optional, hid]
  | _ => rfl

end Rule

namespace Rulesets

/-- The names are distinct, and each is read as it is written. -/
structure Regular (rs : Rulesets) : Prop where
  nodup : (Entries.keys rs).Nodup
  unpaired : ∀ name ∈ Entries.keys rs, name.Unpaired

theorem regular_nil : Regular [] := ⟨List.nodup_nil, by simp [Entries.keys]⟩

theorem Regular.put {rs : Rulesets} (h : rs.Regular) (name : String) (rules : List Rule) :
    Regular (Entries.put rs (ofString name) rules) where
  nodup := Entries.nodup_keys_put h.nodup _ _
  unpaired := by
    intro key hkey
    rcases Entries.mem_keys_put.mp hkey with rfl | hkey
    · exact unpaired_ofChars _
    · exact h.unpaired key hkey

/-! ### What is written -/

/-- The members that the rulesets are written as. -/
def members (rs : Rulesets) : List (Text × Json) :=
  rs.map fun (name, rules) => (name, .arr (rules.map Rule.toJson))

theorem keys_members (rs : Rulesets) : Entries.keys (members rs) = Entries.keys rs := by
  simp [members, Entries.keys]

theorem regular_members {rs : Rulesets} (h : rs.Regular) : Json.Regular IsText (.obj (members rs)) := by
  have hkey : ∀ m ∈ members rs, m.1 ∈ Entries.keys rs := by
    intro m hm
    rw [← keys_members]
    exact List.mem_map_of_mem hm
  refine .obj ?_ (fun m hm => h.unpaired _ (hkey m hm)) ?_
  · rw [keys_members]
    exact h.nodup
  · intro m hm
    obtain ⟨⟨name, rules⟩, -, rfl⟩ := List.mem_map.mp hm
    refine .arr ?_
    intro v hv
    obtain ⟨r, -, rfl⟩ := List.mem_map.mp hv
    exact r.regular_toJson

theorem regular_toJson {rs : Rulesets} (h : rs.Regular) (clock : String) :
    Json.Regular IsText (rs.toJson clock) := by
  refine regular_record IsText [("rulesets", .obj (members rs)), ("updated_at", .str clock)] (by simp) ?_
  simp [regular_members h, regular_ofString]

theorem readRules_toJson (ids : Ids) (rules : List Rule) :
    readRules ids (rules.map Rule.toJson) = .ok rules := by
  have hread : ∀ n, ((rules.map Rule.toJson).zipIdx n).mapM
      (fun p => (Rule.ofJson (ids.nth p.2) p.1).mapError DocumentError.invalidRule) = .ok rules := by
    induction rules with
    | nil => intro n; rfl
    | cons r rules ih =>
      intro n
      rw [List.map_cons, List.zipIdx_cons, List.mapM_cons, ih]
      simp only [Rule.ofJson_toJson]
      rfl
  exact hread 0

theorem readEntries_members (ids : Ids) (rs : Rulesets) :
    ∃ left, readEntries ids (members rs) = .ok (rs, left) := by
  induction rs generalizing ids with
  | nil => exact ⟨ids, rfl⟩
  | cons e rs ih =>
    obtain ⟨name, rules⟩ := e
    obtain ⟨left, hleft⟩ := ih (ids.advance (rules.map Rule.toJson).length)
    rw [members] at hleft
    refine ⟨left, ?_⟩
    simp only [members, List.map_cons, readEntries, items?, readRules_toJson, hleft]
    rfl

theorem get?_toJson (rs : Rulesets) (clock : String) :
    (rs.toJson clock).get? "rulesets" = some (.obj (members rs)) := by
  simp [toJson, Json.get?, Entries.get?_cons, members]

/-- Rulesets are read as they were written, whatever identifiers are left. -/
theorem ofText_toText {rs : Rulesets} (h : rs.Regular) (clock : String) (ids : Ids) :
    ∃ left, ofText ids (rs.toText clock) = .ok (rs, left) := by
  obtain ⟨left, hleft⟩ := readEntries_members ids rs
  refine ⟨left, ?_⟩
  rw [ofText, toText, read_indented (regular_toJson h clock)]
  simp only [ofJson, get?_toJson, hleft]

/-! ### What is read -/

theorem readEntries_cons_eq_ok {ids left : Ids} {name : Text} {v : Json} {ms : List (Text × Json)}
    {rs : Rulesets} (h : readEntries ids ((name, v) :: ms) = .ok (rs, left)) :
    ∃ items rules rest, items? v = some items ∧ readRules ids items = .ok rules ∧
      readEntries (ids.advance items.length) ms = .ok (rest, left) ∧ rs = (name, rules) :: rest := by
  rw [readEntries] at h
  split at h
  · cases h
  · next items hitems =>
    obtain ⟨rules, hrules, h⟩ := bind_eq_ok.mp h
    obtain ⟨⟨rest, ids'⟩, hrest, h⟩ := bind_eq_ok.mp h
    cases h
    exact ⟨items, rules, rest, hitems, hrules, hrest, rfl⟩

theorem keys_of_readEntries {ids left : Ids} {ms : List (Text × Json)} {rs : Rulesets}
    (h : readEntries ids ms = .ok (rs, left)) : Entries.keys rs = Entries.keys ms := by
  induction ms generalizing ids rs with
  | nil =>
    cases h
    rfl
  | cons m ms ih =>
    obtain ⟨items, rules, rest, -, -, hrest, rfl⟩ := readEntries_cons_eq_ok h
    have := ih hrest
    simp_all [Entries.keys]

/-- The document that holds the rulesets, if the text is one. -/
theorem ofText_eq_ok {ids left : Ids} {text : String} {rs : Rulesets} (h : ofText ids text = .ok (rs, left)) :
    ∃ document, Json.read text = .ok document ∧ ofJson ids document = .ok (rs, left) := by
  rw [ofText] at h
  split at h
  · next document hread => exact ⟨document, hread, h⟩
  · cases h

theorem regular_of_ofText {ids left : Ids} {text : String} {rs : Rulesets}
    (h : ofText ids text = .ok (rs, left)) : rs.Regular := by
  obtain ⟨document, hread, h⟩ := ofText_eq_ok h
  have hdocument := regular_of_read hread
  rw [ofJson] at h
  split at h
  · next ms hms =>
    have hregular : Json.Regular IsScalar (.obj ms) := by
      cases document with
      | obj members => exact hdocument.names.2.2 _ (Entries.mem_of_get? hms)
      | _ => cases hms
    have hkeys := keys_of_readEntries h
    obtain ⟨hnodup, hnames, -⟩ := hregular.names
    refine ⟨hkeys ▸ hnodup, fun name hname => ?_⟩
    rw [hkeys] at hname
    obtain ⟨m, hm, rfl⟩ := List.mem_map.mp hname
    exact hnames m hm
  · cases h
    exact regular_nil

/-- Every rule in the document has an identifier. -/
def Identified (document : Json) : Prop :=
  ∀ ms, document.get? "rulesets" = some (.obj ms) → ∀ m ∈ ms, ∀ items, items? m.2 = some items →
    ∀ item ∈ items, (item.get? "rule_id").isSome = true

/-- Rules are written with their identifiers. -/
theorem identified_toJson (rs : Rulesets) (clock : String) : Identified (rs.toJson clock) := by
  intro ms hms m hm items hitems item hitem
  cases (get?_toJson rs clock).symm.trans hms
  obtain ⟨⟨name, rules⟩, -, rfl⟩ := List.mem_map.mp hm
  cases hitems
  obtain ⟨r, -, rfl⟩ := List.mem_map.mp hitem
  simp [Rule.toJson, Json.get?, Entries.get?_cons]

theorem readRules_congr {items : List Json}
    (h : ∀ item ∈ items, (item.get? "rule_id").isSome = true) (first second : Ids) :
    readRules first items = readRules second items := by
  have hread : ∀ n, ((items.zipIdx n).mapM
      fun p => (Rule.ofJson (first.nth p.2) p.1).mapError DocumentError.invalidRule) =
      (items.zipIdx n).mapM
        fun p => (Rule.ofJson (second.nth p.2) p.1).mapError DocumentError.invalidRule := by
    induction items with
    | nil => intro n; rfl
    | cons item items ih =>
      intro n
      obtain ⟨hitem, hitems⟩ := List.forall_mem_cons.mp h
      rw [List.zipIdx_cons, List.mapM_cons, List.mapM_cons, ih hitems]
      simp only [Rule.ofJson_congr hitem (first.nth n) (second.nth n)]
  exact hread 0

theorem readEntries_congr {ids left : Ids} {ms : List (Text × Json)} {rs : Rulesets}
    (h : ∀ m ∈ ms, ∀ items, items? m.2 = some items →
      ∀ item ∈ items, (item.get? "rule_id").isSome = true)
    (hread : readEntries ids ms = .ok (rs, left)) (others : Ids) :
    ∃ left, readEntries others ms = .ok (rs, left) := by
  induction ms generalizing ids rs others with
  | nil =>
    cases hread
    exact ⟨others, rfl⟩
  | cons m ms ih =>
    obtain ⟨name, v⟩ := m
    obtain ⟨items, rules, rest, hitems, hrules, hrest, rfl⟩ := readEntries_cons_eq_ok hread
    obtain ⟨hv, hms⟩ := List.forall_mem_cons.mp h
    obtain ⟨left, hleft⟩ := ih hms hrest (others.advance items.length)
    rw [readRules_congr (hv items hitems) ids others] at hrules
    refine ⟨left, ?_⟩
    simp only [readEntries, hitems, hrules, hleft]
    rfl

/-- The supply of identifiers has no effect on a document in which every rule has one. -/
theorem ofText_congr {ids left : Ids} {text : String} {document : Json} {rs : Rulesets}
    (htext : Json.read text = .ok document) (h : Identified document)
    (hread : ofText ids text = .ok (rs, left)) (others : Ids) :
    ∃ left, ofText others text = .ok (rs, left) := by
  rw [ofText, htext] at hread ⊢
  dsimp only at hread ⊢
  unfold ofJson at hread ⊢
  split at hread
  · next ms hms => exact readEntries_congr (h ms hms) hread others
  · cases hread
    exact ⟨others, rfl⟩

/-- The supply of identifiers has no effect on a document without rulesets. -/
theorem ofText_congr_nil {ids left : Ids} {text : String} (hread : ofText ids text = .ok ([], left))
    (others : Ids) : ∃ left, ofText others text = .ok ([], left) := by
  obtain ⟨document, htext, hdocument⟩ := ofText_eq_ok hread
  refine ofText_congr htext ?_ hread others
  intro ms hms
  rw [ofJson, hms] at hdocument
  have hkeys := keys_of_readEntries hdocument
  have hnil : ms = [] := by simpa [Entries.keys] using hkeys.symm
  simp [hnil]

end Rulesets

end Rulebook
