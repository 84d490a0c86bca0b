import Mathlib.Data.List.Count
import Rulebook.Proofs.Memory
import Rulebook.Proofs.Retention

set_option autoImplicit false

/-!
Making a ruleset of some rules at once, and adding the rules one by one to a ruleset that is not there yet.
Both leave the same rulesets and warn of the same outputs, whatever the store and its supply of identifiers. They
differ in what a rule that is refused leaves behind: nothing, or the rules before it.
-/

namespace Rulebook

open Text

/-! ### Warnings -/

theorem mem_repeats {xs : List String} {x : String} : x ∈ repeats xs ↔ 2 ≤ xs.count x := by
  rw [repeats, List.mem_eraseDups, List.mem_filter, decide_eq_true_eq]
  exact and_iff_right_of_imp fun h => List.count_pos_iff.mp (Nat.lt_of_succ_lt h)

/-- A warning of the log tells that an output is written twice. -/
def Warns (log : List LogEntry) (output : String) : Prop :=
  ∃ e ∈ log, e.event = "duplicate_output_variables" ∧
    ∃ items, ("output_variables", .list items) ∈ e.fields ∧ .text output ∈ items

section

variable {log log' : List LogEntry} {output : String}

theorem warns_append : Warns (log ++ log') output ↔ Warns log output ∨ Warns log' output := by
  simp only [Warns, List.mem_append, or_and_right, exists_or]

/-- Nothing is warned of by an entry for another event. -/
theorem warns_append_other {e : LogEntry} (h : e.event ≠ "duplicate_output_variables") (b : Bool) :
    Warns (log ++ if b then [e] else []) output ↔ Warns log output := by
  rw [warns_append]
  apply or_iff_left
  rintro ⟨e', he', hevent, -⟩
  split at he'
  · cases List.mem_singleton.mp he'
    exact h hevent
  · cases he'

theorem warns_repeatedOutputs {name : String} {outputs : List String} :
    Warns (Service.repeatedOutputs name outputs) output ↔ output ∈ outputs := by
  have htexts : ∀ items, Value.list items = LogEntry.texts outputs →
      (.text output ∈ items ↔ output ∈ outputs) := by
    intro items h
    cases h
    simp [ofString_inj]
  rw [Service.repeatedOutputs]
  constructor
  · intro h
    split at h
    · simp [Warns] at h
    · obtain ⟨e, he, -, items, hitems, houtput⟩ := h
      cases List.mem_singleton.mp he
      have hfield : Value.list items = LogEntry.texts outputs := by simpa using hitems
      exact (htexts items hfield).mp houtput
  · intro h
    have hne : ¬outputs.isEmpty = true := by
      rintro hnil
      rw [List.isEmpty_iff.mp hnil] at h
      cases h
    rw [if_neg hne]
    exact ⟨_, List.mem_singleton_self _, rfl, _, List.mem_cons_of_mem _ (List.mem_singleton_self _),
      (htexts _ rfl).mpr h⟩

end

namespace Service

variable {s : Service} {rs : Rulesets} {name : String}

/-! ### One rule -/

theorem add_made (h : s.store.Finds rs) (hw : s.store.Saves) {text output : Text} {rule : Rule}
    (hb : Rule.build (s.store.ids.nth 0) name text output = .ok rule) :
    ∃ rs' : Rulesets, s.store.Finds rs' ∧ rs'.withoutIds = rs.withoutIds ∧
      (s.add name text output).result = .ok rule ∧
      (s.add name text output).after.store.Retains (Entries.put rs' (ofString name)
        ((Entries.get? rs' (ofString name)).getD [] ++ [rule])) ∧
      (s.add name text output).after.store.Saves ∧
      ∀ v, Warns (s.add name text output).log v ↔ v = rule.output ∧ v ∈ rs.outputs name := by
  have hskipped : (s.skipIds 1).store.Finds rs := h.withIds _
  -- the store is read twice, and what is found can have other identifiers the second time
  obtain ⟨found, ids, hsame, hget⟩ := hskipped.get name
  obtain ⟨rs', s', hfinds, hsame', happend, hretains, hsaves⟩ := (hskipped.withIds ids).append hw name rule
  have houtputs := Rulesets.outputs_congr hsame name
  refine ⟨rs', hfinds, hsame', ?_⟩
  rw [Service.add, hb]
  dsimp only
  rw [hget]
  dsimp only
  rw [happend]
  refine ⟨rfl, hretains, hsaves, fun v => ?_⟩
  rw [warns_append_other (by simp), warns_repeatedOutputs]
  rw [Rulesets.outputs] at houtputs
  rw [houtputs]
  by_cases hmem : rule.output ∈ rs.outputs name
  · rw [if_pos (List.contains_iff_mem.mpr hmem), List.mem_singleton]
    refine (and_iff_left_of_imp ?_).symm
    rintro rfl
    exact hmem
  · rw [if_neg (mt List.contains_iff_mem.mp hmem)]
    apply iff_of_false List.not_mem_nil
    rintro ⟨rfl, hv⟩
    exact hmem hv

/-! ### Rule after rule -/

/-- Adds rules one by one, until one is refused. -/
def addAll (s : Service) (name : String) : List (Text × Text) → Reply (List Rule)
  | [] => ⟨.ok [], [], s⟩
  | (text, output) :: pairs =>
    let first := s.add name text output
    match first.result with
    | .error e => ⟨.error e, first.log, first.after⟩
    | .ok rule =>
      let rest := first.after.addAll name pairs
      ⟨rest.result.map (rule :: ·), first.log ++ rest.log, rest.after⟩

section

variable {text output : Text} {pairs before : List (Text × Text)}

theorem addAll_of_error {e : ServiceError} (h : (s.add name text output).result = .error e) :
    s.addAll name ((text, output) :: pairs) =
      ⟨.error e, (s.add name text output).log, (s.add name text output).after⟩ := by
  rw [addAll, h]

theorem addAll_of_ok {rule : Rule} (h : (s.add name text output).result = .ok rule) :
    let rest := (s.add name text output).after.addAll name pairs
    s.addAll name ((text, output) :: pairs) =
      ⟨rest.result.map (rule :: ·), (s.add name text output).log ++ rest.log, rest.after⟩ := by
  rw [addAll, h]

/-- If all rules are added, what comes next starts from there. -/
theorem addAll_append {rules : List Rule} (h : (s.addAll name before).result = .ok rules)
    (after : List (Text × Text)) :
    (s.addAll name (before ++ after)).result =
        ((s.addAll name before).after.addAll name after).result.map (rules ++ ·) ∧
      (s.addAll name (before ++ after)).after = ((s.addAll name before).after.addAll name after).after := by
  induction before generalizing s rules with
  | nil =>
    cases h
    refine ⟨?_, rfl⟩
    rw [List.nil_append, addAll]
    cases (s.addAll name after).result <;> rfl
  | cons pair before ih =>
    obtain ⟨text, output⟩ := pair
    cases hadd : (s.add name text output).result with
    | error e =>
      rw [addAll_of_error hadd] at h
      cases h
    | ok rule =>
      rw [addAll_of_ok hadd] at h
      obtain ⟨rest, hrest, rfl⟩ := map_eq_ok.mp h
      obtain ⟨hresult, hafter⟩ := ih hrest
      rw [List.cons_append, addAll_of_ok hadd, addAll_of_ok hadd]
      refine ⟨?_, hafter⟩
      dsimp only
      rw [hresult]
      cases (((s.add name text output).after.addAll name before).after.addAll name after).result <;> rfl

end

/-- The service `t` retains what is found in `s`, and behind it a ruleset of rules that were made of the pairs. -/
structure Extends (s t : Service) (name : String) (pairs : List (Text × Text)) (rs : Rulesets)
    (rules : List Rule) : Prop where
  found : s.store.Finds rs
  made : List.Forall₂ (Rule.OfPair name) pairs rules
  retained : t.store.Retains (rs ++ [(ofString name, rules)])

/-- Of what follows, an output that occurs twice in all is the next one, and occurred before, or is among the
rest. -/
theorem repeated_next_iff {before rest : List String} {next v : String} :
    (v = next ∧ v ∈ before) ∨ (v ∈ rest ∧ 2 ≤ ((before ++ [next]) ++ rest).count v) ↔
      v ∈ next :: rest ∧ 2 ≤ (before ++ next :: rest).count v := by
  have hbefore : v ∈ before ↔ 0 < before.count v := List.count_pos_iff.symm
  have hrest : v ∈ rest ↔ 0 < rest.count v := List.count_pos_iff.symm
  rw [List.append_assoc, List.singleton_append, List.count_append, List.count_cons, List.mem_cons, hbefore,
    hrest]
  by_cases h : v = next
  · rw [if_pos (beq_iff_eq.mpr h.symm)]
    simp only [h, true_and, true_or]
    omega
  · rw [if_neg (mt (fun hbeq => (beq_iff_eq.mp hbeq).symm) h)]
    simp only [h, false_and, false_or]

/-- Rules are added to a ruleset at the end of the store. It is warned of every output that occurs among them
and occurs twice in all. -/
theorem addAll_of_last {t : Service} {before : List Rule}
    (h : t.store.Retains (rs ++ [(ofString name, before)])) (hname : ofString name ∉ Entries.keys rs)
    (hw : t.store.Saves) {pairs : List (Text × Text)} (hpairs : ∀ p ∈ pairs, Rule.Buildable p.1 p.2) :
    ∃ rules, (t.addAll name pairs).result = .ok rules ∧ List.Forall₂ (Rule.OfPair name) pairs rules ∧
      (t.addAll name pairs).after.store.Retains (rs ++ [(ofString name, before ++ rules)]) ∧
      (t.addAll name pairs).after.store.Saves ∧
      ∀ v, Warns (t.addAll name pairs).log v ↔ v ∈ rules.map Rule.output ∧
        2 ≤ (before.map Rule.output ++ rules.map Rule.output).count v := by
  induction pairs generalizing t before with
  | nil =>
    refine ⟨[], rfl, .nil, by simpa [addAll] using h, hw, fun v => ?_⟩
    simp [addAll, Warns]
  | cons pair pairs ih =>
    obtain ⟨text, output⟩ := pair
    obtain ⟨hpair, hpairs⟩ := List.forall_mem_cons.mp hpairs
    obtain ⟨rule, hb⟩ := (Rule.exists_build_iff (t.store.ids.nth 0) name text output).mpr hpair
    obtain ⟨found, hfinds, -, hresult, hretains, hsaves, hwarns⟩ := add_made h.finds hw hb
    cases h.eq hfinds
    have houtputs : Rulesets.outputs (rs ++ [(ofString name, before)]) name = before.map Rule.output := by
      rw [Rulesets.outputs, Entries.get?_last hname, Option.getD_some]
    rw [Entries.get?_last hname, Entries.put_last hname, Option.getD_some] at hretains
    obtain ⟨rules, hrest, hmade, hretains, hsaves, hwarns'⟩ := ih hretains hsaves hpairs
    rw [addAll_of_ok hresult]
    refine ⟨rule :: rules, by rw [hrest]; rfl, .cons (Rule.ofPair_of_build hb) hmade, ?_, hsaves, fun v => ?_⟩
    · rwa [← List.append_cons] at hretains
    · rw [warns_append, hwarns, hwarns', houtputs, List.map_append, List.map_cons, List.map_nil, List.map_cons]
      exact repeated_next_iff

/-! ### A new ruleset -/

section

variable {pairs : List (Text × Text)}

theorem count_outputs {rules : List Rule} (h : List.Forall₂ (Rule.OfPair name) pairs rules) (v : String) :
    (pairs.map (·.2)).count (ofString v) = (rules.map Rule.output).count v := by
  rw [Rule.outputs_of_forall₂ h]
  exact List.count_map_of_injective _ _ (fun _ _ => ofString_injective) v

/-- The reply to a request that made a ruleset of the pairs, and warns of the outputs that occur twice. -/
structure Makes (s : Service) (rs : Rulesets) (name : String) (pairs : List (Text × Text))
    (reply : Reply (List Rule)) : Prop where
  made : ∃ (rs' : Rulesets) (rules : List Rule), rs'.withoutIds = rs.withoutIds ∧
    reply.result = .ok rules ∧ s.Extends reply.after name pairs rs' rules
  warns : ∀ v : String, Warns reply.log v ↔ 2 ≤ (pairs.map (·.2)).count (ofString v)

theorem exists_rules_of_buildable (ids : Ids) (hne : pairs ≠ [])
    (hpairs : ∀ p ∈ pairs, Rule.Buildable p.1 p.2) :
    ∃ r rest, Rule.buildAll ids name pairs = .ok (r :: rest) ∧
      List.Forall₂ (Rule.OfPair name) pairs (r :: rest) := by
  obtain ⟨rules, hb, hmade⟩ := Rule.buildAll_of_buildable name ids hpairs
  cases hmade with
  | nil => exact absurd rfl hne
  | cons hr hrest => exact ⟨_, _, hb, .cons hr hrest⟩

theorem makes_create (h : s.store.Finds rs) (hname : ofString name ∉ Entries.keys rs) (hw : s.store.Saves)
    (hne : pairs ≠ []) (hpairs : ∀ p ∈ pairs, Rule.Buildable p.1 p.2) :
    s.Makes rs name pairs (s.create name pairs) := by
  obtain ⟨r, rest, hb, hmade⟩ := exists_rules_of_buildable s.store.ids hne hpairs
  have hskipped : (s.skipIds (r :: rest).length).store.Finds rs := h.withIds _
  obtain ⟨rs', s', hfinds, hsame, hcreate, hretains⟩ := hskipped.create hname hw (r :: rest)
  rw [Service.create, hb]
  dsimp only
  rw [hcreate]
  refine ⟨⟨rs', r :: rest, hsame, rfl, hfinds, hmade, hretains⟩, fun v => ?_⟩
  rw [warns_append_other (by simp), warns_repeatedOutputs, mem_repeats, count_outputs hmade]

theorem makes_addAll (h : s.store.Finds rs) (hname : ofString name ∉ Entries.keys rs) (hw : s.store.Saves)
    (hne : pairs ≠ []) (hpairs : ∀ p ∈ pairs, Rule.Buildable p.1 p.2) :
    s.Makes rs name pairs (s.addAll name pairs) := by
  obtain ⟨⟨text, output⟩, pairs, rfl⟩ := List.exists_cons_of_ne_nil hne
  obtain ⟨hpair, hpairs⟩ := List.forall_mem_cons.mp hpairs
  obtain ⟨rule, hb⟩ := (Rule.exists_build_iff (s.store.ids.nth 0) name text output).mpr hpair
  obtain ⟨rs', hfinds, hsame, hresult, hretains, hsaves, hwarns⟩ := add_made h hw hb
  have hnew := Rulesets.not_mem_keys_congr hsame hname
  rw [Entries.get?_eq_none_iff.mpr hnew, Entries.put_of_not_mem hnew, Option.getD_none,
    List.nil_append] at hretains
  have houtputs : rs.outputs name = [] := by
    rw [Rulesets.outputs, Entries.get?_eq_none_iff.mpr hname]
    rfl
  obtain ⟨rules, hrest, hmade, hretains, -, hwarns'⟩ := addAll_of_last hretains hnew hsaves hpairs
  have hall : List.Forall₂ (Rule.OfPair name) ((text, output) :: pairs) (rule :: rules) :=
    .cons (Rule.ofPair_of_build hb) hmade
  rw [addAll_of_ok hresult]
  refine ⟨⟨rs', rule :: rules, hsame, by rw [hrest]; rfl, hfinds, hall, hretains⟩, fun v => ?_⟩
  rw [warns_append, hwarns, hwarns', houtputs, count_outputs hall]
  -- an output that occurs twice is one of the outputs
  refine repeated_next_iff.trans (and_iff_right_of_imp fun hcount => ?_)
  exact List.count_pos_iff.mp (Nat.lt_of_succ_lt hcount)

section

variable {fault : FileFault}

theorem create_lost (hl : s.store.Loses fault) (h : s.store.Finds rs) (hname : ofString name ∉ Entries.keys rs)
    (hne : pairs ≠ []) (hpairs : ∀ p ∈ pairs, Rule.Buildable p.1 p.2) :
    ∃ ids, (s.create name pairs).result = .error (.store (.file fault)) ∧
      (s.create name pairs).after.store = { s.store with ids } := by
  obtain ⟨r, rest, hb, -⟩ := exists_rules_of_buildable s.store.ids hne hpairs
  have hfinds : (s.skipIds (r :: rest).length).store.Finds rs := h.withIds _
  have hloses : (s.skipIds (r :: rest).length).store.Loses fault := hl.withIds _
  obtain ⟨ids, hcreate⟩ := hloses.create hfinds hname (r :: rest)
  rw [Service.create, hb]
  dsimp only
  rw [hcreate]
  exact ⟨ids, rfl, rfl⟩

theorem add_lost (hl : s.store.Loses fault) (h : s.store.Finds rs) {text output : Text} {rule : Rule}
    (hb : Rule.build (s.store.ids.nth 0) name text output = .ok rule) :
    ∃ ids, (s.add name text output).result = .error (.store (.file fault)) ∧
      (s.add name text output).after.store = { s.store with ids } := by
  have hfinds : (s.skipIds 1).store.Finds rs := h.withIds _
  have hloses : (s.skipIds 1).store.Loses fault := hl.withIds _
  obtain ⟨found, left, -, hget⟩ := hfinds.get name
  obtain ⟨ids, happend⟩ := (hloses.withIds left).append (hfinds.withIds left) name rule
  rw [Service.add, hb]
  dsimp only
  rw [hget]
  dsimp only
  rw [happend]
  exact ⟨ids, rfl, rfl⟩

end

/-- Where nothing can be saved, both fail for the same reason, and change nothing but the supply of
identifiers. -/
theorem lost_alike (h : s.store.Finds rs) (hname : ofString name ∉ Entries.keys rs) (hw : ¬s.store.Saves)
    (hne : pairs ≠ []) (hpairs : ∀ p ∈ pairs, Rule.Buildable p.1 p.2) :
    ∃ fault ids ids', (s.create name pairs).result = .error (.store (.file fault)) ∧
      (s.create name pairs).after.store = { s.store with ids } ∧
      (s.addAll name pairs).result = .error (.store (.file fault)) ∧
      (s.addAll name pairs).after.store = { s.store with ids := ids' } := by
  obtain ⟨fault, hl⟩ := Store.exists_loses hw
  obtain ⟨ids, hcreate, hcreated⟩ := create_lost hl h hname hne hpairs
  obtain ⟨⟨text, output⟩, pairs, rfl⟩ := List.exists_cons_of_ne_nil hne
  obtain ⟨rule, hb⟩ := (Rule.exists_build_iff (s.store.ids.nth 0) name text output).mpr
    (hpairs _ List.mem_cons_self)
  obtain ⟨ids', hadd, hadded⟩ := add_lost hl h hb
  rw [addAll_of_error hadd]
  exact ⟨fault, ids, ids', hcreate, hcreated, rfl, hadded⟩

/-! ### A rule that is refused -/

section

variable {before : List (Text × Text)} {text output : Text} {e : RuleError}

/-- Adding stops at a rule that is refused, with the rules before it added. -/
theorem addAll_of_refused {rules : List Rule} (hbefore : (s.addAll name before).result = .ok rules)
    (he : ∀ id : String, Rule.build id name text output = .error e) (after : List (Text × Text)) :
    (s.addAll name (before ++ (text, output) :: after)).result = .error (.rule e) ∧
      (s.addAll name (before ++ (text, output) :: after)).after = (s.addAll name before).after := by
  have hrefused := add_of_error (he ((s.addAll name before).after.store.ids.nth 0))
  have hadd : ((s.addAll name before).after.add name text output).result = .error (.rule e) := by rw [hrefused]
  obtain ⟨hresult, hafter⟩ := addAll_append hbefore ((text, output) :: after)
  rw [hresult, hafter, addAll_of_error hadd, hrefused]
  exact ⟨rfl, rfl⟩

end

/-- Making a ruleset of rules at once, and adding the rules one by one to the ruleset that is not there yet.
If all can be built, both leave the rulesets that were found and behind them one of the same rules; nothing but
identifiers can differ, and of those that the store retains nothing does. Both warn of the outputs that occur
twice, and of no others. Where nothing can be saved, both fail for the same reason. If a rule cannot be built,
both fail for what is wrong with the first such rule; then making the ruleset leaves everything as it was, and
adding has added exactly the rules before. -/
theorem create_eq_addAll {left : Ids} (h : s.store.load = .ok (rs, left))
    (hname : ofString name ∉ Entries.keys rs) (hne : pairs ≠ []) :
    ((∀ p ∈ pairs, Rule.Buildable p.1 p.2) →
      (s.store.Saves →
        ∃ (rs₁ rs₂ : Rulesets) (made added : List Rule),
          (s.create name pairs).result = .ok made ∧ (s.addAll name pairs).result = .ok added ∧
          s.Extends (s.create name pairs).after name pairs rs₁ made ∧
          s.Extends (s.addAll name pairs).after name pairs rs₂ added ∧
          Rulesets.withoutIds (rs₁ ++ [(ofString name, made)]) =
            Rulesets.withoutIds (rs₂ ++ [(ofString name, added)]) ∧
          (s.store.Retains rs → rs₁ = rs ∧ rs₂ = rs) ∧
          ∀ v : String,
            (Warns (s.create name pairs).log v ↔ 2 ≤ (pairs.map (·.2)).count (ofString v)) ∧
            (Warns (s.addAll name pairs).log v ↔ 2 ≤ (pairs.map (·.2)).count (ofString v))) ∧
      (¬s.store.Saves →
        ∃ fault ids ids', (s.create name pairs).result = .error (.store (.file fault)) ∧
          (s.create name pairs).after.store = { s.store with ids } ∧
          (s.addAll name pairs).result = .error (.store (.file fault)) ∧
          (s.addAll name pairs).after.store = { s.store with ids := ids' })) ∧
    ∀ before text output after, pairs = before ++ (text, output) :: after →
      (∀ p ∈ before, Rule.Buildable p.1 p.2) → ¬Rule.Buildable text output →
        ∃ e, (∀ id : String, Rule.build id name text output = .error e) ∧
          (s.create name pairs).result = .error (.rule e) ∧ (s.create name pairs).after = s ∧
          (s.store.Saves →
            (s.addAll name pairs).result = .error (.rule e) ∧
            (before = [] → (s.addAll name pairs).after = s) ∧
            (before ≠ [] → ∃ (rs' : Rulesets) (added : List Rule), rs'.withoutIds = rs.withoutIds ∧
              s.Extends (s.addAll name pairs).after name before rs' added)) := by
  have hfinds : s.store.Finds rs := ⟨s.store.ids, left, h⟩
  refine ⟨fun hpairs => ⟨fun hw => ?_, fun hw => lost_alike hfinds hname hw hne hpairs⟩, ?_⟩
  · obtain ⟨⟨rs₁, made, hsame₁, hcreate, hmade⟩, hwarns₁⟩ := makes_create hfinds hname hw hne hpairs
    obtain ⟨⟨rs₂, added, hsame₂, hadd, hadded⟩, hwarns₂⟩ := makes_addAll hfinds hname hw hne hpairs
    refine ⟨rs₁, rs₂, made, added, hcreate, hadd, hmade, hadded, ?_,
      fun hr => ⟨hr.eq hmade.found, hr.eq hadded.found⟩, fun v => ⟨hwarns₁ v, hwarns₂ v⟩⟩
    have hrules := Rule.map_withId_of_forall₂ hmade.made hadded.made ""
    have hsame := hsame₁.trans hsame₂.symm
    rw [Rulesets.withoutIds, Rulesets.withoutIds] at hsame ⊢
    rw [List.map_append, List.map_append, hsame, List.map_singleton, List.map_singleton, hrules]
  · rintro before text output after rfl hbefore hnot
    obtain ⟨e, he⟩ := Rule.exists_error_of_not_buildable name hnot
    rw [create_of_error (Rule.buildAll_of_error s.store.ids hbefore he after)]
    refine ⟨e, he, rfl, rfl, fun hw => ?_⟩
    by_cases hnil : before = []
    · subst hnil
      have hstart : (s.addAll name []).result = .ok [] := rfl
      obtain ⟨hresult, hafter⟩ := addAll_of_refused hstart he after
      exact ⟨hresult, fun _ => hafter, fun hne' => absurd rfl hne'⟩
    · obtain ⟨⟨rs', added, hsame, hadd, hadded⟩, -⟩ := makes_addAll hfinds hname hw hnil hbefore
      obtain ⟨hresult, hafter⟩ := addAll_of_refused hadd he after
      rw [hresult, hafter]
      exact ⟨rfl, fun hnil' => absurd hnil' hnil, fun _ => ⟨rs', added, hsame, hadded⟩⟩

end

/-- Two rules for one output. -/
def ofTwins : List (Text × Text) := [("true THEN 1", "twin"), ("not false THEN 2", "twin")]

/-- The twins, and a text that is no rule. -/
def ofSpoiledTwins : List (Text × Text) := ofTwins ++ [(ofString "THEN", ofString "none")]

theorem create_eq_addAll_ofTwins :
    (∃ made added : List Rule,
      (ofNoRules.create "twins" ofTwins).after.store.Retains [(ofString "twins", made)] ∧
      (ofNoRules.addAll "twins" ofTwins).after.store.Retains [(ofString "twins", added)] ∧
      made.map (Rule.withId "") = added.map (Rule.withId "") ∧
      Warns (ofNoRules.create "twins" ofTwins).log "twin" ∧
      Warns (ofNoRules.addAll "twins" ofTwins).log "twin") ∧
    ∃ e, (ofNoRules.create "twins" ofSpoiledTwins).result = .error (.rule e) ∧
      (ofNoRules.create "twins" ofSpoiledTwins).after = ofNoRules ∧
      (ofNoRules.addAll "twins" ofSpoiledTwins).result = .error (.rule e) := by
  have hload : ofNoRules.store.load = .ok ([], ⟨toString, 0⟩) := rfl
  have hretains : ofNoRules.store.Retains [] := fun ids => ⟨ids, rfl⟩
  have hname : ofString "twins" ∉ Entries.keys ([] : Rulesets) := List.not_mem_nil
  have hsaves : ofNoRules.store.Saves := fun _ heq => by cases heq
  have hsplit : RuleText.split "true THEN 1" = .ok ⟨ofString "true", ofString "1"⟩ ∧
      RuleText.split "not false THEN 2" = .ok ⟨ofString "not false", ofString "2"⟩ ∧
      RuleText.split "THEN" = .error .noCondition := by
    decide +kernel
  have hparse : ∀ text ∈ ["true", "1", "not false", "2"], ∃ e, parse text = .ok e := by
    have hall : ∀ text ∈ ["true", "1", "not false", "2"], (parse text).isOk = true := by decide +kernel
    exact fun text htext => isOk_iff.mp (hall text htext)
  have hbuildable : ∀ p ∈ ofTwins, Rule.Buildable p.1 p.2 := by
    have houtput : ∃ name : String, ofString "twin" = name ∧ name ≠ "" := ⟨"twin", rfl, by decide⟩
    simp only [ofTwins, List.forall_mem_cons]
    exact ⟨⟨⟨_, _, hsplit.1, hparse _ (by simp), hparse _ (by simp)⟩, houtput⟩,
      ⟨⟨_, _, hsplit.2.1, hparse _ (by simp), hparse _ (by simp)⟩, houtput⟩, by simp⟩
  have hnot : ¬Rule.Buildable "THEN" "none" := by
    rintro ⟨⟨_, _, h, -⟩, -⟩
    cases hsplit.2.2.symm.trans h
  constructor
  · obtain ⟨rs₁, rs₂, made, added, -, -, hmade, hadded, hsame, hkept, hwarns⟩ :=
      ((create_eq_addAll hload hname (List.cons_ne_nil _ _)).1 hbuildable).1 hsaves
    obtain ⟨rfl, rfl⟩ := hkept hretains
    have htwice : 2 ≤ (ofTwins.map (·.2)).count (ofString "twin") := by decide
    refine ⟨made, added, hmade.retained, hadded.retained, ?_, (hwarns "twin").1.mpr htwice,
      (hwarns "twin").2.mpr htwice⟩
    simpa [Rulesets.withoutIds] using hsame
  · obtain ⟨e, -, hmade, hafter, hadds⟩ := (create_eq_addAll hload hname (List.cons_ne_nil _ _)).2 ofTwins
      "THEN" "none" [] rfl hbuildable hnot
    exact ⟨e, hmade, hafter, (hadds hsaves).1⟩

end Service

end Rulebook
