import Rulebook.Proofs.Passage
import Rulebook.Proofs.RuleTexts
import Rulebook.Proofs.Rules
import Rulebook.Rule.Build

set_option autoImplicit false

/-!
Rules that were built from rule texts. Their parts are expressions, and together they make up a rule text that
is split into these parts again. A run of such rules never halts for the form of a rule.
-/

namespace Rulebook

open Text

/-- What building a rule of a ruleset establishes. -/
structure Rule.Built (ruleset : String) (r : Rule) : Prop where
  id : ∃ id : String, r.id = id
  ruleset : r.ruleset = ruleset
  output : r.output ≠ ""
  condition : ∃ e, parse r.condition = .ok e
  transformation : ∃ e, parse r.transformation = .ok e
  split : RuleText.split (ofString (r.condition ++ " THEN " ++ r.transformation)) =
    .ok ⟨r.condition, r.transformation⟩

namespace Checked

theorem both_eq_ok {α β : Type} {a : Checked α} {b : Checked β} {x : α × β} :
    a.both b = .ok x ↔ a = .ok x.1 ∧ b = .ok x.2 := by
  cases a <;> cases b <;> simp [both, Prod.ext_iff]

theorem under_eq_ok {α : Type} {c : Checked α} {step : String} {x : α} : c.under step = .ok x ↔ c = .ok x :=
  mapError_eq_ok

theorem nonEmpty_eq_ok {s : Text} {x : { s : String // s ≠ "" }} (h : nonEmpty s = .ok x) :
    s = ofString x.1 := by
  rw [nonEmpty] at h
  split at h
  · cases h
  · next t ht =>
    split at h
    · cases h
      exact eq_ofString ht
    · cases h

end Checked

namespace Rule

theorem parse_of_parsePart {part : Text} {e : Expr} (h : parsePart part = .ok e) :
    parse part.shown = .ok e := by
  rw [parsePart] at h
  split at h <;> cases h
  assumption

/-- The parts of a rule that passes its checks. -/
theorem ofParts_eq_ok {id ruleset : Label} {condition transformation output : Text} {r : Rule}
    (h : ofParts id ruleset condition transformation output = .ok r) :
    r.id = id ∧ r.ruleset = ruleset ∧ condition = ofString r.condition ∧
      transformation = ofString r.transformation := by
  rw [ofParts, ofChecked] at h
  obtain ⟨⟨id, ruleset, c, t, o⟩, hparts, hr⟩ := map_eq_ok.mp h
  simp only [Checked.both_eq_ok, Checked.under_eq_ok] at hparts
  obtain ⟨hid, hruleset, hc, ht, -⟩ := hparts
  cases hid
  cases hruleset
  subst hr
  exact ⟨rfl, rfl, Checked.nonEmpty_eq_ok hc, Checked.nonEmpty_eq_ok ht⟩

theorem built_of_build {id ruleset : String} {text output : Text} {r : Rule}
    (h : build id ruleset text output = .ok r) : r.Built ruleset := by
  obtain ⟨parts, hparts, h⟩ := bind_eq_ok.mp h
  obtain ⟨e, he, h⟩ := bind_eq_ok.mp h
  obtain ⟨f, hf, h⟩ := bind_eq_ok.mp h
  obtain ⟨hid, hruleset, hcondition, htransformation⟩ := ofParts_eq_ok (mapError_eq_ok.mp h)
  have hsplit := RuleText.split_respaced (mapError_eq_ok.mp hparts)
  have he := parse_of_parsePart he
  have hf := parse_of_parsePart hf
  obtain ⟨condition, transformation⟩ := parts
  subst hcondition htransformation
  rw [shown_ofString] at he hf
  refine ⟨⟨id, hid⟩, hruleset, r.output_ne, ⟨e, he⟩, ⟨f, hf⟩, ?_⟩
  have hkeyword : ofString " THEN " = RuleText.space :: (RuleText.keyword ++ [RuleText.space]) := rfl
  rw [ofString_append, ofString_append, hkeyword]
  simpa using hsplit

end Rule

/-! ### Running built rules -/

theorem Breaks.ne_parse {α : Type} {nullSafe : Bool} {text : String} {run : Expr → Outcome α} {h : Halt}
    (hb : Breaks nullSafe text run h) (ht : ∃ e, parse text = .ok e) (fault : ParseError) :
    h ≠ .cause (.parse fault) := by
  rintro rfl
  obtain ⟨e, he⟩ := ht
  cases hb with
  | text hfault =>
    rw [he] at hfault
    cases hfault

theorem HaltsAt.ne_parse {nullSafe : Bool} {facts : Bindings} {p : Progress} {rs : List Rule} {i : Nat}
    {h : Halt} (hat : HaltsAt nullSafe facts p rs i h) {ruleset : String} (hrs : ∀ r ∈ rs, r.Built ruleset)
    (fault : ParseError) : h ≠ .cause (.parse fault) := by
  induction hat with
  | here he =>
    have hr := hrs _ List.mem_cons_self
    cases Rule.effect_eq_error_iff.mp he with
    | condition hb => exact hb.ne_parse hr.condition fault
    | transformation _ hb => exact hb.ne_parse hr.transformation fault
  | later _ _ ih => exact ih fun r hr => hrs r (List.mem_cons_of_mem _ hr)

/-- The errors that come from the facts: they are refused, or an evaluation fails on them or crashes. -/
inductive ExecuteError.OfFacts : ExecuteError → Prop
  | data (fault : ValueFault) : OfFacts (.data fault)
  | rule {e : ExecutionError} {err : EvalError} : e.cause = .eval err → OfFacts (.run (.rule e))
  | crash (c : Crash) : OfFacts (.run (.crash c))

/-- Built rules fail for the facts only. -/
theorem Executor.ofFacts_of_run {x : Executor} (hx : x.rules ≠ []) {ruleset : String}
    (hrules : ∀ r ∈ x.rules, r.Built ruleset) {facts : List (Key × Value)} {nullSafe : Option Bool}
    {e : ExecuteError} (h : (x.run facts nullSafe).1 = .error e) : e.OfFacts := by
  cases hclosed : Value.normalizeEntries facts with
  | error fault =>
    have hne : ¬ x.rules.isEmpty = true := by simpa using hx
    rw [run, if_neg hne, Run.new, hclosed] at h
    cases h
    exact .data fault
  | ok closed =>
    rw [run_eq hx ⟨closed, hclosed, rfl⟩, outcome] at h
    split at h
    · cases h
    · next r c hs =>
      cases h
      obtain ⟨i, -, hat⟩ := exists_haltsAt_of_stopped hs
      cases c with
      | parse fault => exact (hat.ne_parse hrules fault rfl).elim
      | eval err => exact .rule rfl
    · next c _ =>
      cases h
      exact .crash c

end Rulebook
