import Rulebook.Proofs.Refusals
import Rulebook.Proofs.Rulesets

set_option autoImplicit false

/-!
What the supply of identifiers has to do with rules: nothing but their identifiers. Whether a rule is built, or
a document is read, and what else is in the rules does not depend on it.
-/

namespace Rulebook

open Text

namespace Rule

/-- The rule under another identifier. -/
def withId (id : Label) (r : Rule) : Rule := { r with id }

theorem ofChecked_withId (id id' : Label) (ruleset : Checked Label)
    (condition transformation output : Checked { s : String // s ≠ "" }) :
    ofChecked (.ok id') ruleset condition transformation output =
      (ofChecked (.ok id) ruleset condition transformation output).map (withId id') := by
  cases ruleset <;> cases condition <;> cases transformation <;> cases output <;> rfl

/-! ### Building -/

/-- A text is split into two expressions without surrogates, and an output is a string and not empty. -/
structure Buildable (text output : Text) : Prop where
  parts : ∃ condition transformation : String, RuleText.split text = .ok ⟨condition, transformation⟩ ∧
    (∃ c, parse condition = .ok c) ∧ ∃ t, parse transformation = .ok t
  output : ∃ name : String, output = name ∧ name ≠ ""

/-- A rule that was made of a text and an output for a ruleset. -/
structure OfPair (ruleset : String) (pair : Text × Text) (r : Rule) : Prop where
  made : r.MadeOf ruleset pair.1 r.output
  output : pair.2 = ofString r.output

variable {id id' ruleset : String} {text output : Text} {pair : Text × Text} {r r' : Rule}

theorem build_withId (id id' ruleset : String) (text output : Text) :
    build id' ruleset text output = (build id ruleset text output).map (withId id') := by
  rw [build, build]
  cases (RuleText.ofText (some text)).mapError RuleError.text with
  | error e => rfl
  | ok parts =>
    have hparts := ofChecked_withId id id' (.ok ↑ruleset) ((Checked.nonEmpty parts.condition).under "condition")
      ((Checked.nonEmpty parts.transformation).under "transformation")
      ((Checked.nonEmpty output).under "output_variable")
    rw [← ofParts, ← ofParts] at hparts
    cases hc : parsePart parts.condition with
    | error e => simp [bind, Except.bind, Except.map, hc]
    | ok c =>
      cases ht : parsePart parts.transformation with
      | error e => simp [bind, Except.bind, Except.map, hc, ht]
      | ok t =>
        simp only [bind, Except.bind, hc, ht, hparts]
        cases ofParts id ruleset parts.condition parts.transformation output <;> rfl

theorem build_error_withId {e : RuleError} (h : build id ruleset text output = .error e) (id' : String) :
    build id' ruleset text output = .error e := by
  rw [build_withId id, h]
  rfl

theorem ofPair_of_build (h : build id ruleset text output = .ok r) : OfPair ruleset (text, output) r := by
  obtain ⟨parts, hparts, h⟩ := bind_eq_ok.mp h
  obtain ⟨c, -, h⟩ := bind_eq_ok.mp h
  obtain ⟨t, -, h⟩ := bind_eq_ok.mp h
  have h := mapError_eq_ok.mp h
  obtain ⟨-, hruleset, hcondition, htransformation⟩ := ofParts_eq_ok h
  obtain ⟨⟨id, ruleset, c, t, o⟩, hchecked, hr⟩ := map_eq_ok.mp h
  simp only [Checked.both_eq_ok, Checked.under_eq_ok] at hchecked
  obtain ⟨-, -, -, -, ho⟩ := hchecked
  obtain ⟨condition, transformation⟩ := parts
  subst hcondition htransformation
  refine ⟨⟨hruleset, mapError_eq_ok.mp hparts, rfl⟩, ?_⟩
  subst hr
  exact Checked.nonEmpty_eq_ok ho

/-- Of one pair only one rule can be made, but for the identifier. -/
theorem OfPair.withId_eq (h : OfPair ruleset pair r) (h' : OfPair ruleset pair r') (id : String) :
    r.withId id = r'.withId id := by
  have hparts := h.made.split.symm.trans h'.made.split
  simp only [Except.ok.injEq, RuleText.mk.injEq, ofString_inj] at hparts
  have houtput := ofString_inj.mp (h.output.symm.trans h'.output)
  have hruleset := h.made.ruleset.trans h'.made.ruleset.symm
  cases r
  cases r'
  simp_all [withId]

/-- Exactly the buildable pairs are built. -/
theorem exists_build_iff (id ruleset : String) (text output : Text) :
    (∃ r, build id ruleset text output = .ok r) ↔ Buildable text output := by
  constructor
  · rintro ⟨r, hr⟩
    have hbuilt := built_of_build hr
    have hpair := ofPair_of_build hr
    exact ⟨⟨r.condition, r.transformation, hpair.made.split, hbuilt.condition, hbuilt.transformation⟩,
      r.output, hpair.output, r.output_ne⟩
  · rintro ⟨⟨condition, transformation, hparts, ⟨c, hc⟩, t, ht⟩, name, rfl, hname⟩
    have hcondition := ne_empty_of_parse hc
    have htransformation := ne_empty_of_parse ht
    rw [← shown_ofString condition] at hc
    rw [← shown_ofString transformation] at ht
    refine ⟨⟨id, ruleset, condition, transformation, name, hcondition, htransformation, hname⟩, ?_⟩
    rw [build_of_split _ _ _ hparts, parsePart_of_ok hc, parsePart_of_ok ht, ofParts,
      Checked.nonEmpty_ofString hcondition, Checked.nonEmpty_ofString htransformation,
      Checked.nonEmpty_ofString hname]
    rfl

theorem exists_error_of_not_buildable (ruleset : String) (h : ¬Buildable text output) :
    ∃ e, ∀ id : String, build id ruleset text output = .error e := by
  cases hb : build "" ruleset text output with
  | ok r => exact absurd ((exists_build_iff "" ruleset text output).mp ⟨r, hb⟩) h
  | error e => exact ⟨e, build_error_withId hb⟩

/-- Buildable pairs become one rule each. -/
theorem buildAll_of_buildable (ruleset : String) {pairs : List (Text × Text)} (ids : Ids)
    (h : ∀ p ∈ pairs, Buildable p.1 p.2) :
    ∃ rules, buildAll ids ruleset pairs = .ok rules ∧ List.Forall₂ (OfPair ruleset) pairs rules := by
  induction pairs generalizing ids with
  | nil => exact ⟨[], rfl, .nil⟩
  | cons pair pairs ih =>
    obtain ⟨text, output⟩ := pair
    obtain ⟨hpair, hpairs⟩ := List.forall_mem_cons.mp h
    obtain ⟨r, hr⟩ := (exists_build_iff (ids.nth 0) ruleset text output).mpr hpair
    obtain ⟨rules, hrules, hall⟩ := ih (ids.advance 1) hpairs
    rw [buildAll, hr, hrules]
    exact ⟨r :: rules, rfl, .cons (ofPair_of_build hr) hall⟩

/-- The first pair that is not built decides. -/
theorem buildAll_of_error {before : List (Text × Text)} {e : RuleError} (ids : Ids)
    (hbefore : ∀ p ∈ before, Buildable p.1 p.2) (he : ∀ id : String, build id ruleset text output = .error e)
    (after : List (Text × Text)) :
    buildAll ids ruleset (before ++ (text, output) :: after) = .error e := by
  induction before generalizing ids with
  | nil =>
    rw [List.nil_append, buildAll, he]
    rfl
  | cons pair before ih =>
    obtain ⟨t, o⟩ := pair
    obtain ⟨hpair, hbefore⟩ := List.forall_mem_cons.mp hbefore
    obtain ⟨r, hr⟩ := (exists_build_iff (ids.nth 0) ruleset t o).mpr hpair
    rw [List.cons_append, buildAll, hr, ih (ids.advance 1) hbefore]
    rfl

theorem map_withId_of_forall₂ {pairs : List (Text × Text)} {rules rules' : List Rule}
    (h : List.Forall₂ (OfPair ruleset) pairs rules) (h' : List.Forall₂ (OfPair ruleset) pairs rules')
    (id : String) :
    rules.map (withId id) = rules'.map (withId id) := by
  induction h generalizing rules' with
  | nil =>
    cases h'
    rfl
  | cons hr _ ih =>
    cases h' with
    | cons hr' hrest => rw [List.map_cons, List.map_cons, hr.withId_eq hr', ih hrest]

theorem outputs_of_forall₂ {pairs : List (Text × Text)} {rules : List Rule}
    (h : List.Forall₂ (OfPair ruleset) pairs rules) :
    pairs.map (·.2) = (rules.map Rule.output).map ofString := by
  induction h with
  | nil => rfl
  | cons hr _ ih => rw [List.map_cons, List.map_cons, List.map_cons, hr.output, ih]

/-! ### Reading -/

theorem ofJson_withId {first : String} {v : Json} (h : ofJson first v = .ok r) (second : String) :
    ∃ r', ofJson second v = .ok r' ∧ r'.withId "" = r.withId "" := by
  by_cases hid : (v.get? "rule_id").isSome = true
  · exact ⟨r, (ofJson_congr hid second first).trans h, rfl⟩
  · cases v with
    | obj members =>
      have hnone : Entries.get? members "rule_id" = none := by
        simpa [Json.get?] using hid
      have hoptional : ∀ id : String, Checked.optional members "rule_id" ↑id .label = .ok ↑id := by
        intro id
        rw [Checked.optional, hnone]
        rfl
      rw [ofJson, hoptional] at h
      rw [ofJson, hoptional, ofChecked_withId first, h]
      exact ⟨_, rfl, rfl⟩
    | _ => cases h

end Rule

namespace Rulesets

/-- The rulesets without the identifiers of their rules. -/
def withoutIds (rs : Rulesets) : Rulesets := rs.map fun e => (e.1, e.2.map (Rule.withId ""))

theorem readRules_withIds {first : Ids} {items : List Json} {rules : List Rule}
    (h : readRules first items = .ok rules) (second : Ids) :
    ∃ rules', readRules second items = .ok rules' ∧
      rules'.map (Rule.withId "") = rules.map (Rule.withId "") := by
  have hread : ∀ n rules, ((items.zipIdx n).mapM
      fun p => (Rule.ofJson (first.nth p.2) p.1).mapError DocumentError.invalidRule) = .ok rules →
      ∃ rules', ((items.zipIdx n).mapM
        fun p => (Rule.ofJson (second.nth p.2) p.1).mapError DocumentError.invalidRule) = .ok rules' ∧
          rules'.map (Rule.withId "") = rules.map (Rule.withId "") := by
    clear h
    induction items with
    | nil =>
      intro n rules h
      exact ⟨rules, h, rfl⟩
    | cons item items ih =>
      intro n rules h
      rw [List.zipIdx_cons, List.mapM_cons] at h ⊢
      obtain ⟨r, hr, h⟩ := bind_eq_ok.mp h
      obtain ⟨rest, hrest, h⟩ := bind_eq_ok.mp h
      cases h
      obtain ⟨r', hr', heq⟩ := Rule.ofJson_withId (mapError_eq_ok.mp hr) (second.nth n)
      obtain ⟨rest', hrest', hmap⟩ := ih (n + 1) rest hrest
      refine ⟨r' :: rest', ?_, by rw [List.map_cons, List.map_cons, heq, hmap]⟩
      rw [mapError_eq_ok.mpr hr', hrest']
      rfl
  exact hread 0 rules h

theorem readEntries_withIds {first left : Ids} {ms : List (Text × Json)} {rs : Rulesets}
    (h : readEntries first ms = .ok (rs, left)) (second : Ids) :
    ∃ rs' left', readEntries second ms = .ok (rs', left') ∧ rs'.withoutIds = rs.withoutIds := by
  induction ms generalizing first rs second with
  | nil =>
    cases h
    exact ⟨[], second, rfl, rfl⟩
  | cons m ms ih =>
    obtain ⟨name, v⟩ := m
    obtain ⟨items, rules, rest, hitems, hrules, hrest, rfl⟩ := readEntries_cons_eq_ok h
    obtain ⟨rules', hrules', heq⟩ := readRules_withIds hrules second
    obtain ⟨rest', left', hrest', hrs⟩ := ih hrest (second.advance items.length)
    refine ⟨(name, rules') :: rest', left', ?_, ?_⟩
    · simp only [readEntries, hitems, hrules', hrest']
      rfl
    · rw [withoutIds, withoutIds] at hrs ⊢
      rw [List.map_cons, List.map_cons, heq, hrs]

/-- With other identifiers the same rulesets are read, but for the identifiers. -/
theorem ofText_withIds {first left : Ids} {text : String} {rs : Rulesets}
    (h : ofText first text = .ok (rs, left)) (second : Ids) :
    ∃ rs' left', ofText second text = .ok (rs', left') ∧ rs'.withoutIds = rs.withoutIds := by
  obtain ⟨document, htext, h⟩ := ofText_eq_ok h
  rw [ofText, htext]
  unfold ofJson at h ⊢
  dsimp only
  split at h
  · exact readEntries_withIds h second
  · cases h
    exact ⟨[], second, rfl, rfl⟩

theorem keys_withoutIds (rs : Rulesets) : Entries.keys rs.withoutIds = Entries.keys rs := by
  simp [withoutIds, Entries.keys]

theorem get?_withoutIds (rs : Rulesets) (name : Text) :
    Entries.get? rs.withoutIds name = (Entries.get? rs name).map (List.map (Rule.withId "")) := by
  induction rs with
  | nil => rfl
  | cons e rs ih =>
    obtain ⟨key, rules⟩ := e
    rw [withoutIds] at ih ⊢
    rw [List.map_cons, Entries.get?_cons, Entries.get?_cons, ih]
    by_cases h : key = name <;> simp [h]

end Rulesets

end Rulebook
