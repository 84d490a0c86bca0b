import Mathlib.Data.Nat.Find
import Rulebook.Proofs.Passage
import Rulebook.Proofs.Rules

set_option autoImplicit false

/-!
Null-safe and strict runs side by side. They are one run up to the first access to null that the
null-safe run forgives, and that access is what the strict run fails with.
-/

namespace Rulebook

/-- The rule and the access to null that an event forgives. -/
def RunEvent.forgiven? : RunEvent → Option (Rule × EvalError)
  | .nullInCondition r e | .nullInTransformation r e => some (r, e)
  | _ => none

/-- What is forgiven in a passage, in order. -/
def Passage.forgiven (p : Passage) : List (Rule × EvalError) := p.events.filterMap RunEvent.forgiven?

/-- The access to null that a rule is forgiven in a null-safe run. -/
def Rule.forgiven (c : Context) (r : Rule) : Option EvalError :=
  match (r.attemptCondition true c).result with
  | .ok true => (r.attemptCondition true c).forgiven.or (r.attemptTransformation true c).forgiven
  | _ => (r.attemptCondition true c).forgiven

/-- A null-safe run forgives the rule in some position. -/
inductive ForgivesAt (facts : Bindings) : Progress → List Rule → Nat → EvalError → Prop
  | here {p : Progress} {r : Rule} {rs : List Rule} {e : EvalError} :
      r.forgiven (p.context facts) = some e → ForgivesAt facts p (r :: rs) 0 e
  | later {p : Progress} {r : Rule} {rs : List Rule} {done : Option Value} {i : Nat} {e : EvalError} :
      r.effect true (p.context facts) = .ok done →
      ForgivesAt facts (p.after r done) rs i e → ForgivesAt facts p (r :: rs) (i + 1) e

/-! ### One rule -/

namespace Rule

variable {c : Context} {r : Rule}

theorem strictCondition_eq :
    match (r.attemptCondition true c).forgiven with
    | none => r.attemptCondition false c = r.attemptCondition true c
    | some e => e.isNullAccess = true ∧ (r.attemptCondition true c).result = .ok false ∧
        r.attemptCondition false c = ⟨none, .error (.cause (.eval e))⟩ :=
  attempt_strict_eq

theorem strictTransformation_eq :
    match (r.attemptTransformation true c).forgiven with
    | none => r.attemptTransformation false c = r.attemptTransformation true c
    | some e => e.isNullAccess = true ∧ (r.attemptTransformation true c).result = .ok .null ∧
        r.attemptTransformation false c = ⟨none, .error (.cause (.eval e))⟩ :=
  attempt_strict_eq

theorem forgiven_of_false (hresult : (r.attemptCondition true c).result = .ok false) :
    r.forgiven c = (r.attemptCondition true c).forgiven := by
  rw [forgiven, hresult]

theorem forgiven_of_error {k : Halt} (hresult : (r.attemptCondition true c).result = .error k) :
    r.forgiven c = (r.attemptCondition true c).forgiven := by
  rw [forgiven, hresult]

theorem forgiven_of_true (hresult : (r.attemptCondition true c).result = .ok true) :
    r.forgiven c =
      (r.attemptCondition true c).forgiven.or (r.attemptTransformation true c).forgiven := by
  rw [forgiven, hresult]

/-- A rule that is forgiven nothing does the same in a strict run. One that is forgiven an access to null
goes on, and fails with that access in a strict run. -/
theorem strict_spec (c : Context) (r : Rule) :
    match r.forgiven c with
    | none => r.effect false c = r.effect true c ∧ r.events false c = r.events true c
    | some e => e.isNullAccess = true ∧ (∃ done, r.effect true c = .ok done) ∧
        r.effect false c = .error (.cause (.eval e)) := by
  have hcondition := strictCondition_eq (c := c) (r := r)
  cases hf : (r.attemptCondition true c).forgiven with
  | some e =>
    rw [hf] at hcondition
    obtain ⟨hnull, hresult, hstrict⟩ := hcondition
    rw [forgiven_of_false hresult, hf]
    exact ⟨hnull, ⟨none, effect_of_false hresult⟩, effect_of_condition_error (by rw [hstrict])⟩
  | none =>
    rw [hf] at hcondition
    cases hresult : (r.attemptCondition true c).result with
    | error k =>
      rw [forgiven_of_error hresult, hf, effect_of_condition_error hresult,
        effect_of_condition_error (by rw [hcondition, hresult])]
      exact ⟨rfl, by simp only [events, hcondition, hresult]⟩
    | ok holds =>
      cases holds with
      | false =>
        rw [forgiven_of_false hresult, hf, effect_of_false hresult,
          effect_of_false (by rw [hcondition, hresult])]
        exact ⟨rfl, by simp only [events, hcondition, hresult]⟩
      | true =>
        have htransformation := strictTransformation_eq (c := c) (r := r)
        rw [forgiven_of_true hresult, hf, Option.none_or, effect_of_true hresult,
          effect_of_true (by rw [hcondition, hresult])]
        cases ht : (r.attemptTransformation true c).forgiven with
        | none =>
          rw [ht] at htransformation
          exact ⟨by rw [htransformation], by
            simp only [events, transformationEvents, hcondition, htransformation]⟩
        | some e =>
          rw [ht] at htransformation
          obtain ⟨hnull, hvalue, hstrict⟩ := htransformation
          rw [hvalue, hstrict]
          exact ⟨hnull, ⟨some .null, rfl⟩, rfl⟩

theorem strict_of_forgiven {e : EvalError} (h : r.forgiven c = some e) :
    e.isNullAccess = true ∧ (∃ done, r.effect true c = .ok done) ∧
      r.effect false c = .error (.cause (.eval e)) := by
  have hspec := strict_spec c r
  rwa [h] at hspec

theorem strict_of_not_forgiven (h : r.forgiven c = none) :
    r.effect false c = r.effect true c ∧ r.events false c = r.events true c := by
  have hspec := strict_spec c r
  rwa [h] at hspec

/-- The events tell what a rule is forgiven. -/
theorem forgiven_events (c : Context) (r : Rule) :
    (r.events true c).filterMap RunEvent.forgiven? = (r.forgiven c).toList.map (r, ·) := by
  have hcondition := strictCondition_eq (c := c) (r := r)
  rw [forgiven, events]
  cases hf : (r.attemptCondition true c).forgiven with
  | some e =>
    rw [hf] at hcondition
    rw [hcondition.2.1]
    rfl
  | none =>
    cases (r.attemptCondition true c).result with
    | error k => rfl
    | ok holds =>
      cases holds with
      | false => rfl
      | true =>
        simp only [transformationEvents]
        cases (r.attemptTransformation true c).forgiven <;>
          cases (r.attemptTransformation true c).result <;> rfl

end Rule

/-! ### Runs -/

section

variable {facts : Bindings} {p : Progress} {r : Rule} {rs : List Rule}

/-- The events of a null-safe run tell at which rules something is forgiven. -/
theorem mem_forgiven_iff {e : EvalError} :
    (r, e) ∈ (passRules true facts p rs).forgiven ↔
      ∃ i, rs[i]? = some r ∧ ForgivesAt facts p rs i e := by
  induction rs generalizing p with
  | nil =>
    constructor
    · intro h
      cases h
    · rintro ⟨i, -, hat⟩
      cases hat
  | cons s rs ih =>
    have hhead : (r, e) ∈ (s.events true (p.context facts)).filterMap RunEvent.forgiven? ↔
        s = r ∧ s.forgiven (p.context facts) = some e := by
      rw [Rule.forgiven_events, List.mem_map]
      constructor
      · rintro ⟨e', he', heq⟩
        obtain ⟨rfl, rfl⟩ := Prod.mk.inj heq
        exact ⟨rfl, Option.mem_toList.mp he'⟩
      · rintro ⟨rfl, hs⟩
        exact ⟨e, Option.mem_toList.mpr hs, rfl⟩
    cases he : s.effect true (p.context facts) with
    | error k =>
      rw [passRules_of_error he, Passage.forgiven, hhead]
      constructor
      · rintro ⟨rfl, hs⟩
        exact ⟨0, rfl, .here hs⟩
      · rintro ⟨i, hi, hat⟩
        cases hat with
        | here hs => exact ⟨by simpa using hi, hs⟩
        | later he' _ => rw [he] at he'; cases he'
    | ok done =>
      have hrest := ih (p := p.after s done)
      rw [Passage.forgiven] at hrest
      rw [passRules_of_ok he, Passage.forgiven, List.filterMap_append, List.mem_append, hhead, hrest]
      constructor
      · rintro (⟨rfl, hs⟩ | ⟨i, hi, hat⟩)
        · exact ⟨0, rfl, .here hs⟩
        · exact ⟨i + 1, hi, .later he hat⟩
      · rintro ⟨i, hi, hat⟩
        cases hat with
        | here hs => exact .inl ⟨by simpa using hi, hs⟩
        | later he' hat =>
          rw [he] at he'
          cases he'
          exact .inr ⟨_, hi, hat⟩

theorem ForgivesAt.exists_rule {i : Nat} {e : EvalError} (h : ForgivesAt facts p rs i e) :
    ∃ r, rs[i]? = some r := by
  induction h with
  | here _ => exact ⟨_, rfl⟩
  | later _ _ ih => exact ih

/-- Nothing is forgiven in a run, so nothing is forgiven at its first rule. -/
theorem forgiven_eq_none (h : ∀ e, ¬ ForgivesAt facts p (r :: rs) 0 e) :
    r.forgiven (p.context facts) = none := by
  cases hf : r.forgiven (p.context facts) with
  | none => rfl
  | some e => exact absurd (.here hf) (h e)

/-- Where nothing is forgiven the two runs are one. -/
theorem passRules_strict_eq (h : ∀ i e, ¬ ForgivesAt facts p rs i e) :
    passRules false facts p rs = passRules true facts p rs := by
  induction rs generalizing p with
  | nil => rfl
  | cons r rs ih =>
    obtain ⟨heffect, hevents⟩ := Rule.strict_of_not_forgiven (forgiven_eq_none (h 0))
    cases he : r.effect true (p.context facts) with
    | error k => rw [passRules_of_error he, passRules_of_error (heffect.trans he), hevents]
    | ok done =>
      have hrest := ih (p := p.after r done) fun i e hat => h (i + 1) e (.later he hat)
      rw [passRules_of_ok he, passRules_of_ok (heffect.trans he), hevents, hrest]

theorem haltsAt_strict_iff (h : ∀ i e, ¬ ForgivesAt facts p rs i e) {i : Nat} {k : Halt} :
    HaltsAt false facts p rs i k ↔ HaltsAt true facts p rs i k := by
  induction rs generalizing p i with
  | nil =>
    constructor
    · intro hat
      cases hat
    · intro hat
      cases hat
  | cons r rs ih =>
    have heffect := (Rule.strict_of_not_forgiven (forgiven_eq_none (h 0))).1
    constructor
    · intro hat
      cases hat with
      | here he => exact .here (heffect.symm.trans he)
      | later he hat =>
        have hsafe := heffect.symm.trans he
        exact .later hsafe ((ih fun j e hj => h (j + 1) e (.later hsafe hj)).mp hat)
    · intro hat
      cases hat with
      | here he => exact .here (heffect.trans he)
      | later he hat =>
        exact .later (heffect.trans he) ((ih fun j e hj => h (j + 1) e (.later he hj)).mpr hat)

/-- The first access to null that is forgiven is what the strict run fails with. -/
theorem ForgivesAt.strict {i : Nat} {e : EvalError} (h : ForgivesAt facts p rs i e)
    (hfirst : ∀ j e', j < i → ¬ ForgivesAt facts p rs j e') :
    e.isNullAccess = true ∧ HaltsAt false facts p rs i (.cause (.eval e)) := by
  induction h with
  | here hf =>
    obtain ⟨hnull, -, hstrict⟩ := Rule.strict_of_forgiven hf
    exact ⟨hnull, .here hstrict⟩
  | @later p r rs done i e he _ ih =>
    have hnone := forgiven_eq_none fun e' => hfirst 0 e' (Nat.succ_pos i)
    obtain ⟨hnull, hat⟩ := ih fun j e' hj hat => hfirst (j + 1) e' (Nat.succ_lt_succ hj) (.later he hat)
    exact ⟨hnull, .later ((Rule.strict_of_not_forgiven hnone).1.trans he) hat⟩

/-- Where the null-safe run halts, the strict run halts too, unless it fails before with an access to
null. -/
theorem HaltsAt.strict {i : Nat} {h : Halt} (hat : HaltsAt true facts p rs i h) :
    HaltsAt false facts p rs i h ∨
      ∃ j e, j < i ∧ e.isNullAccess = true ∧ HaltsAt false facts p rs j (.cause (.eval e)) := by
  -- the runs are one until something is forgiven, and there the strict run halts
  generalize hsafe : true = nullSafe at hat
  induction hat with
  | @here p r rs h he =>
    subst hsafe
    cases hf : r.forgiven (p.context facts) with
    | none => exact .inl (.here ((Rule.strict_of_not_forgiven hf).1.trans he))
    | some e =>
      obtain ⟨-, ⟨done, hdone⟩, -⟩ := Rule.strict_of_forgiven hf
      rw [he] at hdone
      cases hdone
  | @later p r rs done i h he _ ih =>
    subst hsafe
    cases hf : r.forgiven (p.context facts) with
    | some e =>
      obtain ⟨hnull, -, hstrict⟩ := Rule.strict_of_forgiven hf
      exact .inr ⟨0, e, Nat.succ_pos i, hnull, .here hstrict⟩
    | none =>
      have heffect := (Rule.strict_of_not_forgiven hf).1.trans he
      rcases ih with hsame | ⟨j, e, hj, hnull, hbefore⟩
      · exact .inl (.later heffect hsame)
      · exact .inr ⟨j + 1, e, Nat.succ_lt_succ hj, hnull, .later heffect hbefore⟩

/-- A null-safe run does not halt with an access to null. -/
theorem HaltsAt.not_isNullAccess {i : Nat} {e : EvalError}
    (hat : HaltsAt true facts p rs i (.cause (.eval e))) : e.isNullAccess = false := by
  generalize hsafe : true = nullSafe at hat
  generalize hk : Halt.cause (.eval e) = k at hat
  induction hat with
  | here he =>
    subst hsafe hk
    have hb : ∀ {α : Type} {text : String} {run : Expr → Outcome α},
        Breaks true text run (.cause (.eval e)) → e.isNullAccess = false := by
      intro α text run hb
      cases hb with
      | error _ _ hnull => simpa using hnull
    cases Rule.effect_eq_error_iff.mp he with
    | condition h => exact hb h
    | transformation _ h => exact hb h
  | later _ _ ih => exact ih hk

/-- A strict run that passes the rules forgives none of them. -/
theorem not_forgivesAt_of_strict (h : (passRules false facts p rs).stopped = none) (i : Nat)
    (e : EvalError) : ¬ ForgivesAt facts p rs i e := by
  intro hat
  induction hat with
  | here hf =>
    obtain ⟨-, -, hstrict⟩ := Rule.strict_of_forgiven hf
    rw [passRules_of_error hstrict] at h
    cases h
  | @later p r rs done i e he _ ih =>
    cases hf : r.forgiven (p.context facts) with
    | some e' =>
      obtain ⟨-, -, hstrict⟩ := Rule.strict_of_forgiven hf
      rw [passRules_of_error hstrict] at h
      cases h
    | none =>
      have heffect := (Rule.strict_of_not_forgiven hf).1.trans he
      rw [passRules_of_ok heffect] at h
      exact ih h

end

/-! ### Runs of an executor -/

namespace Executor

/-- A null-safe run of an executor forgives the rule in some position. -/
def ForgivesAt (x : Executor) (known : Bindings) (i : Nat) (e : EvalError) : Prop :=
  Rulebook.ForgivesAt known .start x.rules i e

/-- What is forgiven in a null-safe run of an executor, as its events tell. -/
def forgiven (x : Executor) (known : Bindings) : List (Rule × EvalError) :=
  (x.passage (some true) known).forgiven

variable {x : Executor} {facts : List (Key × Value)} {known : Bindings}

theorem forgiven_eq_nil_iff : x.forgiven known = [] ↔ ∀ i e, ¬ x.ForgivesAt known i e := by
  constructor
  · intro h i e hat
    obtain ⟨r, hr⟩ := hat.exists_rule
    have hmem : (r, e) ∈ x.forgiven known := mem_forgiven_iff.mpr ⟨i, hr, hat⟩
    rw [h] at hmem
    cases hmem
  · intro h
    refine List.eq_nil_iff_forall_not_mem.mpr fun w hw => ?_
    obtain ⟨i, -, hat⟩ := mem_forgiven_iff.mp hw
    exact h i w.2 hat

/-- If anything is forgiven, then something is forgiven first. -/
theorem exists_first_forgivesAt (h : x.forgiven known ≠ []) :
    ∃ i e, x.ForgivesAt known i e ∧ ∀ j e', j < i → ¬ x.ForgivesAt known j e' := by
  classical
  have hsome : ∃ i, ∃ e, x.ForgivesAt known i e := by
    by_contra hnone
    exact h (forgiven_eq_nil_iff.mpr fun i e hat => hnone ⟨i, e, hat⟩)
  obtain ⟨e, hat⟩ := Nat.find_spec hsome
  exact ⟨Nat.find hsome, e, hat, fun j e' hj hbefore => Nat.find_min hsome hj ⟨e', hbefore⟩⟩

/-- A run that forgives nothing is the strict run. Otherwise the strict run fails, at the first rule
that is forgiven an access to null, with this access. So a strict report is the null-safe report, no
null-safe run fails with an access to null, and where a null-safe run fails, the strict run fails there
with the same, or before with an access to null. -/
theorem strict_run_of_null_safe_run (hx : x.rules ≠ []) (hf : Accepted facts known) :
    (x.forgiven known = [] →
        (x.run facts (some false)).1 = (x.run facts (some true)).1 ∧
          ∀ i h, x.HaltsAt (some false) known i h ↔ x.HaltsAt (some true) known i h) ∧
      (x.forgiven known ≠ [] → ∃ i r e, x.ForgivesAt known i e ∧
        (∀ j e', j < i → ¬ x.ForgivesAt known j e') ∧ e.isNullAccess = true ∧
          x.rules[i]? = some r ∧ x.HaltsAt (some false) known i (.cause (.eval e)) ∧
          (x.run facts (some false)).1 = .error (.run (.rule (x.failure r (.eval e))))) ∧
      (∀ report, (x.run facts (some false)).1 = .ok report → (x.run facts (some true)).1 = .ok report) ∧
      (∀ err e, (x.run facts (some true)).1 = .error (.run (.rule err)) → err.cause = .eval e →
        e.isNullAccess = false) ∧
      ∀ i c, x.HaltsAt (some true) known i (.cause c) → ∃ j c', j ≤ i ∧
        x.HaltsAt (some false) known j (.cause c') ∧ (j = i → c' = c) ∧
          (j < i → ∃ e, c' = .eval e ∧ e.isNullAccess = true) := by
  have hsame : x.forgiven known = [] →
      (x.run facts (some false)).1 = (x.run facts (some true)).1 := by
    intro h
    have hpassage : x.passage (some false) known = x.passage (some true) known :=
      passRules_strict_eq (forgiven_eq_nil_iff.mp h)
    rw [run_eq hx hf, run_eq hx hf, hpassage]
  refine ⟨fun h => ⟨hsame h, fun i k => haltsAt_strict_iff (forgiven_eq_nil_iff.mp h)⟩, ?_, ?_, ?_, ?_⟩
  · intro h
    obtain ⟨i, e, hat, hfirst⟩ := exists_first_forgivesAt h
    obtain ⟨hnull, hstrict⟩ := hat.strict hfirst
    obtain ⟨r, hr, -⟩ := hstrict.stopped
    exact ⟨i, r, e, hat, hfirst, hnull, hr, hstrict,
      (run_rule_iff hx hf).mpr ⟨i, r, _, hr, hstrict, rfl⟩⟩
  · intro report hreport
    have hpassed := ((run_ok_iff hx hf).mp hreport).1
    have hnone : x.forgiven known = [] :=
      forgiven_eq_nil_iff.mpr (not_forgivesAt_of_strict hpassed)
    rw [← hsame hnone]
    exact hreport
  · intro err e herr hcause
    obtain ⟨i, r, c, -, hat, rfl⟩ := (run_rule_iff hx hf).mp herr
    have hc : c = .eval e := hcause
    subst hc
    exact hat.not_isNullAccess
  · intro i c hat
    rcases hat.strict with hstrict | ⟨j, e, hj, hnull, hstrict⟩
    · exact ⟨i, c, le_refl i, hstrict, fun _ => rfl, fun h => absurd h (lt_irrefl i)⟩
    · exact ⟨j, .eval e, le_of_lt hj, hstrict, fun h => absurd h (ne_of_lt hj), fun _ => ⟨e, rfl, hnull⟩⟩

/-- The second rule counts on from an age that is missing. -/
def ofPerson : Executor where
  rules :=
    [⟨"first", "", "true", "1", "version", by decide, by decide, by decide⟩,
      ⟨"second", "", "version == 1", "person.age + 1", "age", by decide, by decide, by decide⟩]
  ruleset := "persons"
  nullSafe := true

theorem strict_run_ofPerson :
    ∃ i r e, ofPerson.ForgivesAt [] i e ∧ ofPerson.rules[i]? = some r ∧
      (ofPerson.run [] (some false)).1 = .error (.run (.rule (ofPerson.failure r (.eval e)))) := by
  have hx : ofPerson.rules ≠ [] := List.cons_ne_nil _ _
  have hf : Accepted [] [] := ⟨[], rfl, rfl⟩
  have hforgiven : ofPerson.forgiven [] ≠ [] := by decide +kernel
  obtain ⟨-, hstrict, -⟩ := strict_run_of_null_safe_run hx hf
  obtain ⟨i, r, e, hat, -, -, hr, -, hrun⟩ := hstrict hforgiven
  exact ⟨i, r, e, hat, hr, hrun⟩

end Executor

end Rulebook
