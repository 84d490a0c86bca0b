import Rulebook.Executor
import Rulebook.Proofs.Values

set_option autoImplicit false

/-!
How far a list of rules is passed. A run goes on with the progress that the rules before left, so that
lists can be joined; where it halts is a position in the list. Two runs in lockstep, in which each rule
does the same and each write keeps the progress related, halt at the same position.
-/

namespace Rulebook

/-- Rules halt at a position: those before it do something or nothing, and the one there cannot go on. -/
inductive HaltsAt (nullSafe : Bool) (facts : Bindings) : Progress → List Rule → Nat → Halt → Prop
  | here {p : Progress} {r : Rule} {rs : List Rule} {h : Halt} :
      r.effect nullSafe (p.context facts) = .error h → HaltsAt nullSafe facts p (r :: rs) 0 h
  | later {p : Progress} {r : Rule} {rs : List Rule} {done : Option Value} {i : Nat} {h : Halt} :
      r.effect nullSafe (p.context facts) = .ok done →
      HaltsAt nullSafe facts (p.after r done) rs i h → HaltsAt nullSafe facts p (r :: rs) (i + 1) h

section

variable {nullSafe : Bool} {facts : Bindings} {p : Progress} {r : Rule} {rs ss : List Rule}

theorem passRules_of_error {h : Halt} (he : r.effect nullSafe (p.context facts) = .error h) :
    passRules nullSafe facts p (r :: rs) =
      ⟨r.events nullSafe (p.context facts), p, some (r, h)⟩ := by
  simp only [passRules, he]

theorem passRules_of_ok {done : Option Value} (he : r.effect nullSafe (p.context facts) = .ok done) :
    passRules nullSafe facts p (r :: rs) =
      ⟨r.events nullSafe (p.context facts) ++ (passRules nullSafe facts (p.after r done) rs).events,
        (passRules nullSafe facts (p.after r done) rs).progress,
        (passRules nullSafe facts (p.after r done) rs).stopped⟩ := by
  simp only [passRules, he]

/-- Rules that are all passed are followed by others from the progress they left. -/
theorem passRules_append_of_passed (h : (passRules nullSafe facts p rs).stopped = none)
    (ss : List Rule) :
    (passRules nullSafe facts p (rs ++ ss)).progress =
        (passRules nullSafe facts (passRules nullSafe facts p rs).progress ss).progress ∧
      (passRules nullSafe facts p (rs ++ ss)).stopped =
        (passRules nullSafe facts (passRules nullSafe facts p rs).progress ss).stopped := by
  induction rs generalizing p with
  | nil => exact ⟨rfl, rfl⟩
  | cons r rs ih =>
    cases he : r.effect nullSafe (p.context facts) with
    | error k =>
      rw [passRules_of_error he] at h
      cases h
    | ok done =>
      rw [passRules_of_ok he] at h
      rw [List.cons_append, passRules_of_ok he, passRules_of_ok he]
      exact ih h

/-- Rules that are not all passed are not followed by others. -/
theorem passRules_append_of_stopped {k : Rule × Halt}
    (h : (passRules nullSafe facts p rs).stopped = some k) :
    passRules nullSafe facts p (rs ++ ss) = passRules nullSafe facts p rs := by
  induction rs generalizing p with
  | nil => cases h
  | cons r rs ih =>
    cases he : r.effect nullSafe (p.context facts) with
    | error k => rw [List.cons_append, passRules_of_error he, passRules_of_error he]
    | ok done =>
      rw [passRules_of_ok he] at h
      rw [List.cons_append, passRules_of_ok he, passRules_of_ok he, ih h]

theorem passed_of_append (h : (passRules nullSafe facts p (rs ++ ss)).stopped = none) :
    (passRules nullSafe facts p rs).stopped = none := by
  cases hs : (passRules nullSafe facts p rs).stopped with
  | none => rfl
  | some k =>
    rw [passRules_append_of_stopped hs, hs] at h
    cases h

/-! ### The position of a halt -/

theorem exists_haltsAt_of_stopped {h : Halt}
    (hs : (passRules nullSafe facts p rs).stopped = some (r, h)) :
    ∃ i, rs[i]? = some r ∧ HaltsAt nullSafe facts p rs i h := by
  induction rs generalizing p with
  | nil => cases hs
  | cons s rs ih =>
    cases he : s.effect nullSafe (p.context facts) with
    | error k =>
      rw [passRules_of_error he] at hs
      cases hs
      exact ⟨0, rfl, .here he⟩
    | ok done =>
      rw [passRules_of_ok he] at hs
      obtain ⟨i, hi, hat⟩ := ih hs
      exact ⟨i + 1, hi, .later he hat⟩

theorem HaltsAt.stopped {i : Nat} {h : Halt} (hat : HaltsAt nullSafe facts p rs i h) :
    ∃ r, rs[i]? = some r ∧ (passRules nullSafe facts p rs).stopped = some (r, h) := by
  induction hat with
  | here he => exact ⟨_, rfl, by rw [passRules_of_error he]⟩
  | later he _ ih =>
    obtain ⟨r, hr, hs⟩ := ih
    exact ⟨r, hr, by rw [passRules_of_ok he, hs]⟩

theorem stopped_eq_some_iff {h : Halt} :
    (passRules nullSafe facts p rs).stopped = some (r, h) ↔
      ∃ i, rs[i]? = some r ∧ HaltsAt nullSafe facts p rs i h := by
  constructor
  · exact exists_haltsAt_of_stopped
  · rintro ⟨i, hi, hat⟩
    obtain ⟨s, hs, hstop⟩ := hat.stopped
    rw [hi] at hs
    cases hs
    exact hstop

theorem stopped_eq_none_iff :
    (passRules nullSafe facts p rs).stopped = none ↔ ∀ i h, ¬ HaltsAt nullSafe facts p rs i h := by
  constructor
  · intro hnone i h hat
    obtain ⟨r, -, hs⟩ := hat.stopped
    rw [hnone] at hs
    cases hs
  · intro hnever
    cases hs : (passRules nullSafe facts p rs).stopped with
    | none => rfl
    | some k =>
      obtain ⟨i, -, hat⟩ := exists_haltsAt_of_stopped hs
      exact absurd hat (hnever i k.2)

theorem HaltsAt.lt_length {i : Nat} {h : Halt} (hat : HaltsAt nullSafe facts p rs i h) :
    i < rs.length := by
  obtain ⟨r, hr, -⟩ := hat.stopped
  exact (List.getElem?_eq_some_iff.mp hr).1

theorem HaltsAt.unique {i j : Nat} {h k : Halt} (hi : HaltsAt nullSafe facts p rs i h)
    (hj : HaltsAt nullSafe facts p rs j k) : i = j ∧ h = k := by
  induction hi generalizing j k with
  | here he =>
    cases hj with
    | here he' =>
      rw [he] at he'
      cases he'
      exact ⟨rfl, rfl⟩
    | later he' _ => rw [he] at he'; cases he'
  | later he _ ih =>
    cases hj with
    | here he' => rw [he] at he'; cases he'
    | later he' hat =>
      rw [he] at he'
      cases he'
      obtain ⟨rfl, rfl⟩ := ih hat
      exact ⟨rfl, rfl⟩

/-- More rules behind it do not move a halt. -/
theorem HaltsAt.append {i : Nat} {h : Halt} (hat : HaltsAt nullSafe facts p rs i h)
    (ss : List Rule) : HaltsAt nullSafe facts p (rs ++ ss) i h := by
  induction hat with
  | here he => exact .here he
  | later he _ ih => exact .later he ih

/-- In front of more rules only these decide over their own positions. -/
theorem haltsAt_append_iff_of_lt {i : Nat} {k : Halt} (hi : i < rs.length) :
    HaltsAt nullSafe facts p (rs ++ ss) i k ↔ HaltsAt nullSafe facts p rs i k := by
  constructor
  · intro hat
    induction rs generalizing p i with
    | nil => exact absurd hi (Nat.not_lt_zero i)
    | cons r rs ih =>
      cases hat with
      | here he => exact .here he
      | later he hat => exact .later he (ih (Nat.lt_of_succ_lt_succ hi) hat)
  · exact fun hat => hat.append ss

theorem haltsAt_append_iff_of_passed (h : (passRules nullSafe facts p rs).stopped = none)
    {i : Nat} {k : Halt} :
    HaltsAt nullSafe facts p (rs ++ ss) i k ↔
      ∃ j, i = rs.length + j ∧
        HaltsAt nullSafe facts (passRules nullSafe facts p rs).progress ss j k := by
  induction rs generalizing p i with
  | nil =>
    constructor
    · exact fun hat => ⟨i, (Nat.zero_add i).symm, hat⟩
    · rintro ⟨j, rfl, hat⟩
      rw [List.length_nil, Nat.zero_add]
      exact hat
  | cons r rs ih =>
    cases he : r.effect nullSafe (p.context facts) with
    | error k =>
      rw [passRules_of_error he] at h
      cases h
    | ok done =>
      rw [passRules_of_ok he] at h ⊢
      constructor
      · intro hat
        cases hat with
        | here he' => rw [he] at he'; cases he'
        | later he' hat =>
          rw [he] at he'
          cases he'
          obtain ⟨j, rfl, hj⟩ := (ih h).mp hat
          exact ⟨j, by rw [List.length_cons]; omega, hj⟩
      · rintro ⟨j, rfl, hj⟩
        have hat := HaltsAt.later he ((ih h).mpr ⟨j, rfl, hj⟩)
        rwa [List.length_cons, Nat.add_right_comm]

end

/-- What every write keeps holds of the progress that is made. -/
theorem passRules_invariant {nullSafe : Bool} {facts : Bindings} {I : Progress → Prop} {rs : List Rule}
    (hfire : ∀ p r v, I p → r.effect nullSafe (p.context facts) = .ok (some v) → I (p.fire r v))
    {p : Progress} (h : I p) : I (passRules nullSafe facts p rs).progress := by
  induction rs generalizing p with
  | nil => exact h
  | cons r rs ih =>
    cases he : r.effect nullSafe (p.context facts) with
    | error k =>
      rw [passRules_of_error he]
      exact h
    | ok done =>
      rw [passRules_of_ok he]
      refine ih ?_
      cases done with
      | none => exact h
      | some v => exact hfire p r v h he

/-! ### Two runs over the same rules -/

/-- Each rule does the same in both runs, and each write keeps the progress of the runs related. -/
structure Lockstep (nullSafe : Bool) (facts facts' : Bindings) (R : Progress → Progress → Prop)
    (rs : List Rule) : Prop where
  effect : ∀ r ∈ rs, ∀ p q, R p q →
    r.effect nullSafe (p.context facts) = r.effect nullSafe (q.context facts')
  fire : ∀ r ∈ rs, ∀ p q v, R p q → R (p.fire r v) (q.fire r v)

namespace Lockstep

variable {nullSafe : Bool} {facts facts' : Bindings} {R : Progress → Progress → Prop} {p q : Progress}
  {r : Rule} {rs : List Rule}

theorem symm (h : Lockstep nullSafe facts facts' R rs) :
    Lockstep nullSafe facts' facts (fun q p => R p q) rs where
  effect r hr q p hpq := (h.effect r hr p q hpq).symm
  fire r hr q p v hpq := h.fire r hr p q v hpq

theorem tail (h : Lockstep nullSafe facts facts' R (r :: rs)) :
    Lockstep nullSafe facts facts' R rs where
  effect s hs := h.effect s (List.mem_cons_of_mem r hs)
  fire s hs := h.fire s (List.mem_cons_of_mem r hs)

theorem effect_head (h : Lockstep nullSafe facts facts' R (r :: rs)) (hpq : R p q)
    {done : Except Halt (Option Value)} (he : r.effect nullSafe (p.context facts) = done) :
    r.effect nullSafe (q.context facts') = done :=
  (h.effect r List.mem_cons_self p q hpq).symm.trans he

theorem after_head (h : Lockstep nullSafe facts facts' R (r :: rs)) (hpq : R p q)
    (done : Option Value) : R (p.after r done) (q.after r done) := by
  cases done with
  | none => exact hpq
  | some v => exact h.fire r List.mem_cons_self p q v hpq

theorem passRules (h : Lockstep nullSafe facts facts' R rs) (hpq : R p q) :
    R (passRules nullSafe facts p rs).progress (passRules nullSafe facts' q rs).progress ∧
      (passRules nullSafe facts p rs).stopped = (passRules nullSafe facts' q rs).stopped := by
  induction rs generalizing p q with
  | nil => exact ⟨hpq, rfl⟩
  | cons r rs ih =>
    cases he : r.effect nullSafe (p.context facts) with
    | error k =>
      rw [passRules_of_error he, passRules_of_error (h.effect_head hpq he)]
      exact ⟨hpq, rfl⟩
    | ok done =>
      rw [passRules_of_ok he, passRules_of_ok (h.effect_head hpq he)]
      exact ih h.tail (h.after_head hpq done)

theorem haltsAt (h : Lockstep nullSafe facts facts' R rs) (hpq : R p q) {i : Nat} {k : Halt}
    (hat : HaltsAt nullSafe facts p rs i k) : HaltsAt nullSafe facts' q rs i k := by
  induction hat generalizing q with
  | here he => exact .here (h.effect_head hpq he)
  | later he _ ih => exact .later (h.effect_head hpq he) (ih h.tail (h.after_head hpq _))

theorem haltsAt_iff (h : Lockstep nullSafe facts facts' R rs) (hpq : R p q) {i : Nat} {k : Halt} :
    HaltsAt nullSafe facts p rs i k ↔ HaltsAt nullSafe facts' q rs i k :=
  ⟨h.haltsAt hpq, h.symm.haltsAt hpq⟩

end Lockstep

/-! ### Runs of an executor -/

/-- Facts that a run accepts, and what it knows from them. -/
def Accepted (facts : List (Key × Value)) (known : Bindings) : Prop :=
  ∃ closed, Value.normalizeEntries facts = .ok closed ∧ known = .ofEntries closed

namespace Executor

/-- How a run of an executor goes that knows some facts. -/
def passage (x : Executor) (nullSafe : Option Bool) (known : Bindings) : Passage :=
  passRules (nullSafe.getD x.nullSafe) known .start x.rules

/-- A run of an executor halts at the rule in some position. -/
def HaltsAt (x : Executor) (nullSafe : Option Bool) (known : Bindings) (i : Nat) (h : Halt) : Prop :=
  Rulebook.HaltsAt (nullSafe.getD x.nullSafe) known .start x.rules i h

/-- The executor of other rules under the same settings. -/
def withRules (x : Executor) (rules : List Rule) : Executor := { x with rules }

/-- The failure of a rule as an executor reports it. -/
def failure (x : Executor) (r : Rule) (c : Cause) : ExecutionError :=
  ⟨r, c, if x.ruleset = "" then r.ruleset else x.ruleset⟩

/-- The report of a run that made some progress. -/
def report (x : Executor) (p : Progress) : Report :=
  ⟨x.ruleset, p.derived, x.rules.length, p.executed⟩

variable {x : Executor} {nullSafe : Option Bool} {facts : List (Key × Value)} {known : Bindings}

/-- The run that an executor starts. -/
def start (x : Executor) (facts : List (Key × Value)) (nullSafe : Option Bool) :
    Except ValueFault Run :=
  Run.new "" x.rules x.ruleset (nullSafe.getD x.nullSafe) facts

/-- What an executor makes of a passage. -/
def outcome (x : Executor) (passage : Passage) : Except ExecuteError Report :=
  match passage.stopped with
  | none => .ok (x.report passage.progress)
  | some (r, .cause c) => .error (.run (.rule (x.failure r c)))
  | some (_, .crash c) => .error (.run (.crash c))

theorem start_eq (hf : Accepted facts known) (nullSafe : Option Bool) :
    x.start facts nullSafe =
      .ok ⟨"", x.rules, x.ruleset, nullSafe.getD x.nullSafe, known, .start, .pending⟩ := by
  obtain ⟨closed, hclosed, rfl⟩ := hf
  rw [start, Run.new, hclosed]
  rfl

theorem run_of_start (hx : x.rules ≠ []) {run : Run} (h : x.start facts nullSafe = .ok run) :
    (x.run facts nullSafe).1 = run.execute.1.mapError .run := by
  have hne : ¬ x.rules.isEmpty = true := by simpa using hx
  rw [start] at h
  rw [Executor.run, if_neg hne, h]

theorem run_eq (hx : x.rules ≠ []) (hf : Accepted facts known) :
    (x.run facts nullSafe).1 = x.outcome (x.passage nullSafe known) := by
  rw [run_of_start hx (start_eq hf nullSafe)]
  simp only [Run.execute, if_true, passage, outcome]
  cases hs : (passRules (nullSafe.getD x.nullSafe) known .start x.rules).stopped with
  | none => rfl
  | some k =>
    obtain ⟨r, h⟩ := k
    cases h <;> rfl

/-- Passages that stop alike have outcomes alike, up to what is made of the reports. -/
theorem outcome_map (x y : Executor) (hname : x.ruleset = y.ruleset) {p q : Passage}
    (hstopped : p.stopped = q.stopped) (f : Report → Report)
    (hreport : x.report p.progress = f (y.report q.progress)) :
    x.outcome p = (y.outcome q).map f := by
  rw [outcome, outcome, hstopped]
  cases q.stopped with
  | none => exact congrArg Except.ok hreport
  | some k =>
    obtain ⟨r, h⟩ := k
    cases h with
    | cause c =>
      have hfailure : x.failure r c = y.failure r c := by rw [failure, failure, hname]
      exact congrArg (fun e => Except.error (ExecuteError.run (RunError.rule e))) hfailure
    | crash c => rfl

theorem run_ok_iff (hx : x.rules ≠ []) (hf : Accepted facts known) {report : Report} :
    (x.run facts nullSafe).1 = .ok report ↔
      (x.passage nullSafe known).stopped = none ∧
        report = x.report (x.passage nullSafe known).progress := by
  rw [run_eq hx hf, outcome]
  split <;> simp_all [eq_comm]

theorem run_error_of_stopped (hx : x.rules ≠ []) (hf : Accepted facts known)
    (h : (x.passage nullSafe known).stopped ≠ none) : ∃ e, (x.run facts nullSafe).1 = .error e := by
  cases hrun : (x.run facts nullSafe).1 with
  | ok report => exact absurd ((run_ok_iff hx hf).mp hrun).1 h
  | error e => exact ⟨e, rfl⟩

theorem run_rule_iff (hx : x.rules ≠ []) (hf : Accepted facts known) {e : ExecutionError} :
    (x.run facts nullSafe).1 = .error (.run (.rule e)) ↔
      ∃ i r c, x.rules[i]? = some r ∧ x.HaltsAt nullSafe known i (.cause c) ∧ e = x.failure r c := by
  constructor
  · intro h
    rw [run_eq hx hf, outcome] at h
    split at h
    · cases h
    · next r c hs =>
      cases h
      obtain ⟨i, hi, hat⟩ := exists_haltsAt_of_stopped hs
      exact ⟨i, r, c, hi, hat, rfl⟩
    · cases h
  · rintro ⟨i, r, c, hi, hat, rfl⟩
    rw [run_eq hx hf, outcome, passage, stopped_eq_some_iff.mpr ⟨i, hi, hat⟩]

theorem run_crash_iff (hx : x.rules ≠ []) (hf : Accepted facts known) {c : Crash} :
    (x.run facts nullSafe).1 = .error (.run (.crash c)) ↔
      ∃ i, x.HaltsAt nullSafe known i (.crash c) := by
  constructor
  · intro h
    rw [run_eq hx hf, outcome] at h
    split at h
    · cases h
    · cases h
    · next r c' hs =>
      cases h
      obtain ⟨i, -, hat⟩ := exists_haltsAt_of_stopped hs
      exact ⟨i, hat⟩
  · rintro ⟨i, hat⟩
    obtain ⟨r, -, hs⟩ := HaltsAt.stopped hat
    rw [run_eq hx hf, outcome, passage, hs]

end Executor

end Rulebook
