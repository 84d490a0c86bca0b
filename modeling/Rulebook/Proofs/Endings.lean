import Rulebook.Proofs.Crashes
import Rulebook.Proofs.Semantics

set_option autoImplicit false

/-!
How a run ends. It is completed with a report, or failed with the error of a rule, unless a rule comes to an
operation that has no result, or to a text with an integer of too many digits: that is not the error of a rule,
and the run is left running.
-/

namespace Rulebook

/-- A text comes to an operation that has no result, or it holds an integer of too many digits. -/
inductive StallsOn (c : Context) (text : String) : Crash → Prop
  | digits : parse text = .error .digits → StallsOn c text .digits
  | expression {e : Expr} {k : Crash} : parse text = .ok e → e.Stalls c k → StallsOn c text k

/-- So does a rule, in its condition or, if that holds, in its transformation. -/
inductive Rule.Stalls (nullSafe : Bool) (c : Context) (r : Rule) (k : Crash) : Prop
  | condition : StallsOn c r.condition k → Stalls nullSafe c r k
  | transformation : Yields nullSafe false r.condition (evalCondition .builtin c) true →
      StallsOn c r.transformation k → Stalls nullSafe c r k

/-- A condition crashes where its expression does. -/
theorem evalCondition_crash_iff {c : Context} {k : Crash} (hc : ∀ name, (c.root name).Closed) {e : Expr}
    (he : e.LiteralsIn Value.Closed) :
    evalCondition .builtin c e = .error (.crash k) ↔ e.Stalls c k := by
  rw [← eval_crash_iff hc he, evalCondition, bind_eq_error]
  constructor
  · rintro (h | ⟨v, hv, h⟩)
    · exact h
    · exact absurd h ((Value.closed_law.asCondition (Expr.closed_of_eval hc he hv)).ne_crash k)
  · exact .inl

/-- A text breaks with a crash where it stalls, whatever is done with its expression that crashes with it. -/
theorem breaks_crash_iff {α : Type} {nullSafe : Bool} {c : Context} {k : Crash} {text : String}
    {run : Expr → Outcome α}
    (hrun : ∀ {e}, e.LiteralsIn Value.Closed → (run e = .error (.crash k) ↔ e.Stalls c k)) :
    Breaks nullSafe text run (.crash k) ↔ StallsOn c text k := by
  constructor
  · intro h
    cases h with
    | digits hp => exact .digits hp
    | crash hp hr => exact .expression hp ((hrun (Expr.closed_of_parse hp)).mp hr)
  · intro h
    cases h with
    | digits hp => exact .digits hp
    | expression hp he => exact .crash hp ((hrun (Expr.closed_of_parse hp)).mpr he)

theorem Rule.halts_crash_iff {nullSafe : Bool} {c : Context} {k : Crash}
    (hc : ∀ name, (c.root name).Closed) (r : Rule) :
    r.Halts nullSafe c (.crash k) ↔ r.Stalls nullSafe c k := by
  constructor
  · intro h
    cases h with
    | condition hb => exact .condition ((breaks_crash_iff (evalCondition_crash_iff hc)).mp hb)
    | transformation hcondition hb =>
      exact .transformation hcondition ((breaks_crash_iff (eval_crash_iff hc)).mp hb)
  · intro h
    cases h with
    | condition hs => exact .condition ((breaks_crash_iff (evalCondition_crash_iff hc)).mpr hs)
    | transformation hcondition hs =>
      exact .transformation hcondition ((breaks_crash_iff (eval_crash_iff hc)).mpr hs)

/-- A rule that halts behind a trail is where the rules halt. -/
theorem Trail.haltsAt {nullSafe : Bool} {facts : Bindings} {before after : List Rule} {r : Rule}
    {fired : List (Rule × Value)} {h : Halt} (htrail : Trail nullSafe facts before fired)
    (hr : r.Halts nullSafe ⟨facts, written fired⟩ h) :
    HaltsAt nullSafe facts .start (before ++ r :: after) before.length h := by
  obtain ⟨hpassed, hprogress⟩ := htrail.passed
  refine (haltsAt_append_iff_of_passed hpassed).mpr ⟨0, rfl, ?_⟩
  rw [hprogress]
  exact .here (Rule.effect_eq_error_iff.mpr hr)

theorem Trail.closed {nullSafe : Bool} {facts : Bindings} {rs : List Rule} {fired : List (Rule × Value)}
    (h : Trail nullSafe facts rs fired) (hfacts : facts.Closed) : (written fired).Closed := by
  have hclosed : (passRules nullSafe facts .start rs).progress.derived.Closed :=
    passRules_closed hfacts Bindings.closed_nil
  rwa [h.passed.2] at hclosed

/-! ### The first execution -/

namespace Run

/-- How the rules of a run are passed. -/
def passage (run : Run) : Passage := passRules run.nullSafe run.facts run.progress run.rules

/-- The run with the progress that its rules make, left in a status. -/
def left (run : Run) (status : Status) : Run := { run with progress := run.passage.progress, status }

/-- What the first execution of a run comes to, by what its rules stop at. -/
inductive Executes (run : Run) : Except RunError Report × Run × List RunEvent → Prop
  | completed : run.passage.stopped = none →
      Executes run (.ok (run.left .completed).report, run.left .completed,
        .started run.rules.length :: run.passage.events ++
          [.completed run.passage.progress.executed (Entries.keys run.passage.progress.derived)])
  | failed {r : Rule} {c : Cause} : run.passage.stopped = some (r, .cause c) →
      Executes run (.error (.rule ⟨r, c, run.rulesetOf r⟩), run.left .failed,
        .started run.rules.length :: run.passage.events ++ [.failed r c])
  | stalled {r : Rule} {k : Crash} : run.passage.stopped = some (r, .crash k) →
      Executes run (.error (.crash k), run.left .running,
        .started run.rules.length :: run.passage.events)

theorem executes {run : Run} (h : run.status = .pending) : run.Executes run.execute := by
  rw [execute, if_pos h]
  cases hs : run.passage.stopped with
  | none =>
    rw [passage] at hs
    simp only [hs]
    exact .completed hs
  | some stop =>
    obtain ⟨r, halt⟩ := stop
    rw [passage] at hs
    simp only [hs]
    cases halt with
    | cause c => exact .failed hs
    | crash k => exact .stalled hs

/-- How a run can end when it is executed, with the status that it is left in. -/
inductive Ends : Except RunError Report → Status → Prop
  | completed (report : Report) : Ends (.ok report) .completed
  | failed (e : ExecutionError) : Ends (.error (.rule e)) .failed
  | stalled (k : Crash) : Ends (.error (.crash k)) .running

theorem ends {run : Run} (h : run.status = .pending) :
    Ends run.execute.1 run.execute.2.1.status := by
  have hexecutes := executes h
  generalize run.execute = execution at hexecutes ⊢
  cases hexecutes with
  | completed => exact .completed _
  | failed => exact .failed _
  | stalled => exact .stalled _

theorem progress_execute {run : Run} (h : run.status = .pending) :
    run.execute.2.1.progress = run.passage.progress := by
  have hexecutes := executes h
  generalize run.execute = execution at hexecutes ⊢
  cases hexecutes <;> rfl

end Run

namespace Executor

variable {x : Executor} {nullSafe : Option Bool} {facts : List (Key × Value)} {known : Bindings}

theorem crash_iff_stalls (hx : x.rules ≠ []) (hf : Accepted facts known) {k : Crash} :
    (x.run facts nullSafe).1 = .error (.run (.crash k)) ↔
      ∃ before r after fired, x.rules = before ++ r :: after ∧
        Trail (nullSafe.getD x.nullSafe) known before fired ∧
        r.Stalls (nullSafe.getD x.nullSafe) ⟨known, written fired⟩ k := by
  have hroot : ∀ {before fired}, Trail (nullSafe.getD x.nullSafe) known before fired →
      ∀ name, (Context.root ⟨known, written fired⟩ name).Closed := fun htrail =>
    Context.all_root Value.closed_law.null hf.closed (htrail.closed hf.closed)
  rw [run_crash_iff hx hf]
  constructor
  · rintro ⟨i, hat⟩
    obtain ⟨before, r, after, fired, hrules, -, htrail, hhalts⟩ := exists_trail_of_haltsAt hat
    exact ⟨before, r, after, fired, hrules, htrail, (r.halts_crash_iff (hroot htrail)).mp hhalts⟩
  · rintro ⟨before, r, after, fired, hrules, htrail, hstalls⟩
    refine ⟨before.length, ?_⟩
    rw [HaltsAt, hrules]
    exact htrail.haltsAt ((r.halts_crash_iff (hroot htrail)).mpr hstalls)

/-- The first execution over accepted facts ends in one of three ways: with a report and completed, with the
error of a rule and failed, or with a crash and left running. It crashes exactly if, behind rules that skip
or fire, a rule comes to an operation that has no result or to a text with an integer of too many digits. -/
theorem run_ends (x : Executor) (nullSafe : Option Bool) (hx : x.rules ≠ []) (hf : Accepted facts known) :
    ∃ run, x.start facts nullSafe = .ok run ∧ (x.run facts nullSafe).1 = run.execute.1.mapError .run ∧
      Run.Ends run.execute.1 run.execute.2.1.status ∧
      ∀ k, run.execute.1 = .error (.crash k) ↔
        ∃ before r after fired, x.rules = before ++ r :: after ∧
          Trail (nullSafe.getD x.nullSafe) known before fired ∧
          r.Stalls (nullSafe.getD x.nullSafe) ⟨known, written fired⟩ k := by
  have hstart := start_eq (x := x) hf nullSafe
  have hrun := run_of_start hx hstart
  refine ⟨_, hstart, hrun, Run.ends rfl, fun k => ?_⟩
  rw [← crash_iff_stalls hx hf, hrun, mapError_eq_error]
  simp

/-- A rule that asks for the remainder of a number beyond all binary64 numbers. -/
def ofRemainder : Executor where
  rules := [⟨"rest", "", "1 <= 2", "1e400 % 2", "rest", by decide, by decide, by decide⟩]
  ruleset := "remainders"
  nullSafe := true

theorem status_ofRemainder :
    (ofRemainder.start [] none).toOption.map (·.execute.2.1.status) = some .running := by
  decide +kernel

theorem run_ends_ofRemainder :
    ∃ run k, ofRemainder.start [] none = .ok run ∧ run.execute.1 = .error (.crash k) ∧
      ∃ before r after fired, ofRemainder.rules = before ++ r :: after ∧ Trail true [] before fired ∧
        r.Stalls true ⟨[], written fired⟩ k := by
  have hx : ofRemainder.rules ≠ [] := List.cons_ne_nil _ _
  have hf : Accepted [] [] := ⟨[], rfl, rfl⟩
  obtain ⟨run, hstart, -, hends, hstalls⟩ := run_ends ofRemainder none hx hf
  obtain ⟨left, hleft, hstatus⟩ := toOption_map_eq_some.mp status_ofRemainder
  cases hstart.symm.trans hleft
  rw [hstatus] at hends
  cases hresult : run.execute.1 with
  | ok report =>
    rw [hresult] at hends
    cases hends
  | error e =>
    rw [hresult] at hends
    cases hends with
    | stalled k => exact ⟨run, k, hstart, hresult, (hstalls k).mp hresult⟩

/-- Not every first execution leaves a run completed or failed. -/
theorem not_always_final :
    ¬ ∀ (x : Executor) (nullSafe : Option Bool) (facts : List (Key × Value)) (known : Bindings),
      x.rules ≠ [] → Accepted facts known → ∀ run, x.start facts nullSafe = .ok run →
        (∃ report, run.execute.1 = .ok report ∧ run.execute.2.1.status = .completed) ∨
          ∃ e, run.execute.1 = .error (.rule e) ∧ run.execute.2.1.status = .failed := by
  intro h
  have hx : ofRemainder.rules ≠ [] := List.cons_ne_nil _ _
  have hf : Accepted [] [] := ⟨[], rfl, rfl⟩
  obtain ⟨run, hstart, hstatus⟩ := toOption_map_eq_some.mp status_ofRemainder
  rcases h ofRemainder none [] [] hx hf run hstart with ⟨_, -, hfinal⟩ | ⟨_, -, hfinal⟩
  · cases hfinal.symm.trans hstatus
  · cases hfinal.symm.trans hstatus

end Executor

end Rulebook
