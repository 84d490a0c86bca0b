import Rulebook.Proofs.Endings
import Rulebook.Proofs.Forgiveness

set_option autoImplicit false

/-!
What the log of a run tells. Between an entry for the start and one for the end stand blocks of entries, one
block for each rule that is reached. The writes that the entries tell of, made one after the other, are the
outputs of the run.
-/

namespace Rulebook

/-! ### The events of a rule -/

section

variable {α : Type}

/-- Evaluating a text gives a value. -/
def Gives (text : String) (run : Expr → Outcome α) (a : α) : Prop :=
  ∃ e, parse text = .ok e ∧ run e = .ok a

/-- Evaluating a text comes to an access to null. -/
def MeetsNull (text : String) (run : Expr → Outcome α) (err : EvalError) : Prop :=
  ∃ e, parse text = .ok e ∧ run e = .error (.error err) ∧ err.isNullAccess = true

/-- An attempt has a value, forgives an access to null, or breaks. -/
inductive Attempted (nullSafe : Bool) (fallback : α) (text : String) (run : Expr → Outcome α) :
    Attempt α → Prop
  | gave {a : α} : Gives text run a → Attempted nullSafe fallback text run ⟨none, .ok a⟩
  | forgave {err : EvalError} : nullSafe = true → MeetsNull text run err →
      Attempted nullSafe fallback text run ⟨some err, .ok fallback⟩
  | broke {h : Halt} : Breaks nullSafe text run h →
      Attempted nullSafe fallback text run ⟨none, .error h⟩

theorem attempted (nullSafe : Bool) (fallback : α) (text : String) (run : Expr → Outcome α) :
    Attempted nullSafe fallback text run (attempt nullSafe fallback text run) := by
  cases hp : parse text with
  | error unread =>
    cases unread with
    | fault fault =>
      rw [attempt_of_fault hp]
      exact .broke (.text hp)
    | digits =>
      rw [attempt_of_digits hp]
      exact .broke (.digits hp)
  | ok e =>
    cases hr : run e with
    | ok a =>
      rw [attempt_of_ok hp hr]
      exact .gave ⟨e, hp, hr⟩
    | error failure =>
      cases failure with
      | crash c =>
        rw [attempt_of_crash hp hr]
        exact .broke (.crash hp hr)
      | error err =>
        rw [attempt_of_error hp hr]
        by_cases hnull : nullSafe = true ∧ err.isNullAccess = true
        · rw [if_pos hnull]
          exact .forgave hnull.1 ⟨e, hp, hr, hnull.2⟩
        · rw [if_neg hnull]
          exact .broke (.error hp hr hnull)

end

namespace Rule

/-- The events of a rule from its condition on, by what it comes to in a context. -/
inductive Logs (nullSafe : Bool) (c : Context) (r : Rule) :
    Except Halt (Option Value) → List RunEvent → Prop
  | conditionBroke {h : Halt} : Breaks nullSafe r.condition (evalCondition .builtin c) h →
      Logs nullSafe c r (.error h) []
  | skipped : Gives r.condition (evalCondition .builtin c) false →
      Logs nullSafe c r (.ok none) [.conditionEvaluated r false]
  | skippedForNull {err : EvalError} : nullSafe = true →
      MeetsNull r.condition (evalCondition .builtin c) err →
      Logs nullSafe c r (.ok none) [.nullInCondition r err, .conditionEvaluated r false]
  | transformationBroke {h : Halt} : Gives r.condition (evalCondition .builtin c) true →
      Breaks nullSafe r.transformation (eval .builtin c) h →
      Logs nullSafe c r (.error h) [.conditionEvaluated r true]
  | fired {v : Value} : Gives r.condition (evalCondition .builtin c) true →
      Gives r.transformation (eval .builtin c) v →
      Logs nullSafe c r (.ok (some v)) [.conditionEvaluated r true, .fired r v]
  | firedForNull {err : EvalError} : Gives r.condition (evalCondition .builtin c) true →
      nullSafe = true → MeetsNull r.transformation (eval .builtin c) err →
      Logs nullSafe c r (.ok (some .null))
        [.conditionEvaluated r true, .nullInTransformation r err, .fired r .null]

theorem logs (nullSafe : Bool) (c : Context) (r : Rule) :
    ∃ es, r.events nullSafe c = .ruleStarted r (Entries.keys c.derived) :: es ∧
      r.Logs nullSafe c (r.effect nullSafe c) es := by
  have hcondition := attempted nullSafe false r.condition (evalCondition .builtin c)
  rw [effect, events, attemptCondition]
  generalize attempt nullSafe false r.condition (evalCondition .builtin c) = a at hcondition ⊢
  cases hcondition with
  | broke hb => exact ⟨_, rfl, .conditionBroke hb⟩
  | forgave hsafe hnull => exact ⟨_, rfl, .skippedForNull hsafe hnull⟩
  | @gave holds hgives =>
    cases holds with
    | false => exact ⟨_, rfl, .skipped hgives⟩
    | true =>
      have htransformation := attempted nullSafe Value.null r.transformation (eval .builtin c)
      simp only [transformationEvents, attemptTransformation]
      generalize attempt nullSafe Value.null r.transformation (eval .builtin c) = a at htransformation ⊢
      cases htransformation with
      | broke hb => exact ⟨_, rfl, .transformationBroke hgives hb⟩
      | forgave hsafe hnull => exact ⟨_, rfl, .firedForNull hgives hsafe hnull⟩
      | gave hvalue => exact ⟨_, rfl, .fired hgives hvalue⟩

end Rule

/-! ### The events of a run -/

/-- The blocks of the rules that are reached, in their order, from one progress to another. Each rule is
reached over what the rules before it wrote; the last one may be a rule that the run stops at. -/
inductive Account (nullSafe : Bool) (facts : Bindings) :
    Progress → List Rule → List RunEvent → Progress → Option (Rule × Halt) → Prop
  | done {p : Progress} : Account nullSafe facts p [] [] p none
  | skip {p q : Progress} {r : Rule} {rs : List Rule} {es events : List RunEvent}
      {stop : Option (Rule × Halt)} : r.Logs nullSafe (p.context facts) (.ok none) es →
      Account nullSafe facts p rs events q stop →
      Account nullSafe facts p (r :: rs) (.ruleStarted r (Entries.keys p.derived) :: es ++ events) q stop
  | fire {p q : Progress} {r : Rule} {v : Value} {rs : List Rule} {es events : List RunEvent}
      {stop : Option (Rule × Halt)} : r.Logs nullSafe (p.context facts) (.ok (some v)) es →
      Account nullSafe facts (p.fire r v) rs events q stop →
      Account nullSafe facts p (r :: rs) (.ruleStarted r (Entries.keys p.derived) :: es ++ events) q stop
  | stop {p : Progress} {r : Rule} {h : Halt} {rs : List Rule} {es : List RunEvent} :
      r.Logs nullSafe (p.context facts) (.error h) es →
      Account nullSafe facts p (r :: rs) (.ruleStarted r (Entries.keys p.derived) :: es) p (some (r, h))

theorem passRules_account (nullSafe : Bool) (facts : Bindings) (p : Progress) (rs : List Rule) :
    Account nullSafe facts p rs (passRules nullSafe facts p rs).events
      (passRules nullSafe facts p rs).progress (passRules nullSafe facts p rs).stopped := by
  induction rs generalizing p with
  | nil => exact .done
  | cons r rs ih =>
    obtain ⟨es, hevents, hlogs⟩ := r.logs nullSafe (p.context facts)
    cases he : r.effect nullSafe (p.context facts) with
    | error h =>
      rw [he] at hlogs
      rw [passRules_of_error he, hevents]
      exact .stop hlogs
    | ok done =>
      rw [he] at hlogs
      rw [passRules_of_ok he, hevents]
      cases done with
      | none => exact .skip hlogs (ih p)
      | some v => exact .fire hlogs (ih (p.fire r v))

/-- The write that an event tells of. -/
def RunEvent.write? : RunEvent → Option (String × Value)
  | fired r v => some (r.output, v)
  | _ => none

/-- What a rule writes. -/
def Rule.writes (r : Rule) : Except Halt (Option Value) → List (String × Value)
  | .ok (some v) => [(r.output, v)]
  | _ => []

theorem Rule.Logs.writes {nullSafe : Bool} {c : Context} {r : Rule}
    {done : Except Halt (Option Value)} {es : List RunEvent} (h : r.Logs nullSafe c done es) :
    es.filterMap RunEvent.write? = r.writes done := by
  cases h <;> rfl

/-- The events tell all that is written. -/
theorem Account.writes {nullSafe : Bool} {facts : Bindings} {p q : Progress} {rs : List Rule}
    {events : List RunEvent} {stop : Option (Rule × Halt)}
    (h : Account nullSafe facts p rs events q stop) :
    q.derived = Entries.override p.derived (events.filterMap RunEvent.write?) ∧
      q.executed = p.executed + (events.filterMap RunEvent.write?).length := by
  have hblock : ∀ {r : Rule} {available : List String} {es : List RunEvent},
      (.ruleStarted r available :: es).filterMap RunEvent.write? = es.filterMap RunEvent.write? := rfl
  induction h with
  | done => exact ⟨rfl, rfl⟩
  | skip hlogs _ ih =>
    rw [List.filterMap_append, hblock, hlogs.writes]
    exact ih
  | fire hlogs _ ih =>
    rw [List.filterMap_append, hblock, hlogs.writes]
    refine ⟨ih.1, ih.2.trans ?_⟩
    simp only [Progress.fire, Rule.writes, List.singleton_append, List.length_cons]
    omega
  | stop hlogs =>
    rw [hblock, hlogs.writes]
    exact ⟨rfl, rfl⟩

/-! ### The entries of a log -/

namespace LogEntry

def field? (e : LogEntry) (name : String) : Option Value := e.fields.lookup name

/-- The write that an entry tells of, if it is the entry of a rule that fired. -/
def write? (e : LogEntry) : Option (String × Value) :=
  if e.event = "rule_fired" then
    match e.field? "output_variable", e.field? "value" with
    | some (.text name), some v => name.toString?.map (·, v)
    | _, _ => none
  else none

end LogEntry

/-- The outputs that a log tells of: its writes, made in order onto an empty map. -/
def replay (log : List LogEntry) : Bindings := Entries.override [] (log.filterMap LogEntry.write?)

/-- An entry agrees with the log around it. A rule starts over the outputs that were written before; a
condition treated as false is false, and a transformation that returns null writes null. -/
structure LogEntry.Agrees (before : List LogEntry) (e : LogEntry) (after : List LogEntry) : Prop where
  available : e.event = "rule_started" →
    e.field? "available_outputs" = some (texts (Entries.keys (replay before)))
  treatedAsFalse : e.field? "outcome" = some (.text "treated as false") →
    ∃ next rest, after = next :: rest ∧ next.event = "rule_condition_evaluated" ∧
      next.field? "rule_id" = e.field? "rule_id" ∧ next.field? "result" = some (.bool false)
  returningNull : e.field? "outcome" = some (.text "returning null") →
    ∃ next rest, after = next :: rest ∧ next.event = "rule_fired" ∧
      next.field? "rule_id" = e.field? "rule_id" ∧ next.field? "value" = some .null

/-- All entries of a part of a log agree with the log around them. -/
def Agree : List LogEntry → List LogEntry → List LogEntry → Prop
  | _, [], _ => True
  | before, e :: es, after => e.Agrees before (es ++ after) ∧ Agree (before ++ [e]) es after

theorem agree_append {before xs ys after : List LogEntry} :
    Agree before (xs ++ ys) after ↔ Agree before xs (ys ++ after) ∧ Agree (before ++ xs) ys after := by
  induction xs generalizing before with
  | nil => simp [Agree]
  | cons x xs ih => simp [Agree, ih, and_assoc]

theorem Agree.agrees {before log after : List LogEntry} (h : Agree before log after)
    {pre post : List LogEntry} {e : LogEntry} (hlog : log = pre ++ e :: post) :
    e.Agrees (before ++ pre) (post ++ after) := by
  rw [hlog, agree_append] at h
  exact h.2.1

namespace RunEvent

variable {ruleset : String} {nullSafe : Bool}

theorem write?_entry (e : RunEvent) : (e.entry ruleset nullSafe).write? = e.write? := by
  cases e <;>
    simp [entry, name, fields, LogEntry.write?, LogEntry.field?, write?, List.lookup_cons]

theorem name_eq_fired_iff {e : RunEvent} : e.name = "rule_fired" ↔ e.write?.isSome = true := by
  cases e <;> simp [name, write?]

theorem treated_ne_returning : Text.ofString "treated as false" ≠ Text.ofString "returning null" :=
  fun h => absurd (Text.ofString_injective h) (by decide)

variable {before after : List LogEntry} {r : Rule}

theorem agrees_ruleStarted {available : List String} (h : available = Entries.keys (replay before)) :
    ((ruleStarted r available).entry ruleset nullSafe).Agrees before after where
  available _ := by simp [entry, fields, LogEntry.field?, List.lookup_cons, h]
  treatedAsFalse h := by simp [entry, fields, LogEntry.field?, List.lookup_cons] at h
  returningNull h := by simp [entry, fields, LogEntry.field?, List.lookup_cons] at h

theorem agrees_nullInCondition {err : EvalError} :
    ((nullInCondition r err).entry ruleset nullSafe).Agrees before
      ((conditionEvaluated r false).entry ruleset nullSafe :: after) where
  available h := by simp [entry, name] at h
  treatedAsFalse _ := by
    refine ⟨_, _, rfl, rfl, ?_⟩
    simp [entry, fields, LogEntry.field?, List.lookup_cons]
  returningNull h := by
    simp [entry, fields, LogEntry.field?, List.lookup_cons, treated_ne_returning] at h

theorem agrees_nullInTransformation {err : EvalError} :
    ((nullInTransformation r err).entry ruleset nullSafe).Agrees before
      ((fired r .null).entry ruleset nullSafe :: after) where
  available h := by simp [entry, name] at h
  treatedAsFalse h := by
    simp [entry, fields, LogEntry.field?, List.lookup_cons, treated_ne_returning.symm] at h
  returningNull _ := by
    refine ⟨_, _, rfl, rfl, ?_⟩
    simp [entry, fields, LogEntry.field?, List.lookup_cons]

/-- An entry that tells neither of a start over some outputs nor of a null agrees with any log. -/
theorem agrees_of_plain {e : RunEvent} (hname : e.name ≠ "rule_started")
    (houtcome : e.fields.lookup "outcome" = none) : (e.entry ruleset nullSafe).Agrees before after where
  available h := absurd h hname
  treatedAsFalse h := by simp [entry, LogEntry.field?, List.lookup_cons, houtcome] at h
  returningNull h := by simp [entry, LogEntry.field?, List.lookup_cons, houtcome] at h

end RunEvent

theorem replay_append (log : List LogEntry) (ruleset : String) (nullSafe : Bool) (events : List RunEvent) :
    replay (log ++ events.map (·.entry ruleset nullSafe)) =
      Entries.override (replay log) (events.filterMap RunEvent.write?) := by
  have hwrites : (events.map (·.entry ruleset nullSafe)).filterMap LogEntry.write? =
      events.filterMap RunEvent.write? := by
    simp [List.filterMap_map, RunEvent.write?_entry]
  rw [replay, List.filterMap_append, Entries.override_append, hwrites]
  rfl

/-- The rules that fired are counted by the writes. -/
theorem countP_fired (ruleset : String) (nullSafe : Bool) (events : List RunEvent) :
    (events.map (·.entry ruleset nullSafe)).countP (·.event = "rule_fired") =
      (events.filterMap RunEvent.write?).length := by
  rw [List.countP_map, List.length_filterMap_eq_countP]
  refine List.countP_congr fun e _ => ?_
  rw [Function.comp_apply, decide_eq_true_eq]
  exact RunEvent.name_eq_fired_iff

section

variable {nullSafe : Bool} {ruleset : String}

theorem Rule.Logs.agree {c : Context} {r : Rule} {done : Except Halt (Option Value)}
    {es : List RunEvent} (h : r.Logs nullSafe c done es) (before after : List LogEntry) :
    Agree before (es.map (·.entry ruleset nullSafe)) after := by
  have hevaluated : ∀ {before after holds},
      ((RunEvent.conditionEvaluated r holds).entry ruleset nullSafe).Agrees before after :=
    RunEvent.agrees_of_plain (by simp [RunEvent.name]) rfl
  have hfired : ∀ {before after v},
      ((RunEvent.fired r v).entry ruleset nullSafe).Agrees before after :=
    RunEvent.agrees_of_plain (by simp [RunEvent.name]) rfl
  cases h with
  | conditionBroke => trivial
  | skipped => exact ⟨hevaluated, trivial⟩
  | skippedForNull => exact ⟨RunEvent.agrees_nullInCondition, hevaluated, trivial⟩
  | transformationBroke => exact ⟨hevaluated, trivial⟩
  | fired => exact ⟨hevaluated, hfired, trivial⟩
  | firedForNull => exact ⟨hevaluated, RunEvent.agrees_nullInTransformation, hfired, trivial⟩

/-- A block agrees with a log in which its rule starts over what was written before. -/
theorem Rule.Logs.agree_block {c : Context} {r : Rule} {done : Except Halt (Option Value)}
    {es : List RunEvent} (h : r.Logs nullSafe c done es) {before : List LogEntry}
    (hbefore : replay before = c.derived) (after : List LogEntry) :
    Agree before ((.ruleStarted r (Entries.keys c.derived) :: es).map (·.entry ruleset nullSafe))
      after :=
  ⟨RunEvent.agrees_ruleStarted (by rw [hbefore]), h.agree _ after⟩

theorem Account.agree {facts : Bindings} {p q : Progress} {rs : List Rule} {events : List RunEvent}
    {stop : Option (Rule × Halt)} (h : Account nullSafe facts p rs events q stop)
    {before : List LogEntry} (hbefore : replay before = p.derived) (after : List LogEntry) :
    Agree before (events.map (·.entry ruleset nullSafe)) after := by
  -- what is replayed grows by the writes of each block
  have hgrow : ∀ {p : Progress} {r : Rule} {done} {es : List RunEvent} {before : List LogEntry},
      r.Logs nullSafe (p.context facts) done es → replay before = p.derived →
      replay (before ++ (.ruleStarted r (Entries.keys p.derived) :: es).map (·.entry ruleset nullSafe)) =
        Entries.override p.derived (r.writes done) := by
    intro p r done es before hlogs hbefore
    rw [replay_append, hbefore, ← hlogs.writes]
    rfl
  induction h generalizing before with
  | done => trivial
  | skip hlogs _ ih =>
    rw [List.map_append, agree_append]
    exact ⟨hlogs.agree_block hbefore _, ih (hgrow hlogs hbefore)⟩
  | fire hlogs _ ih =>
    rw [List.map_append, agree_append]
    exact ⟨hlogs.agree_block hbefore _, ih (hgrow hlogs hbefore)⟩
  | stop hlogs => exact hlogs.agree_block hbefore after

end

/-! ### The log of a run -/

namespace Run

/-- How a log is closed: by what the run reports, or by the rule that it fails with. -/
inductive Closes (run : Run) : Except RunError Report → Option (Rule × Halt) → RunEvent → Prop
  | completed (report : Report) :
      Closes run (.ok report) none (.completed report.executed (Entries.keys report.outputs))
  | failed (r : Rule) (c : Cause) :
      Closes run (.error (.rule ⟨r, c, run.rulesetOf r⟩)) (some (r, .cause c)) (.failed r c)

/-- The entries of the first execution. -/
def log (run : Run) : List LogEntry := run.execute.2.2.map (·.entry run.ruleset run.nullSafe)

section

variable {run : Run}

theorem Closes.write?_eq_none {result : Except RunError Report} {stop : Option (Rule × Halt)}
    {close : RunEvent} (h : run.Closes result stop close) : close.write? = none := by
  cases h <;> rfl

theorem Closes.agrees {result : Except RunError Report} {stop : Option (Rule × Halt)}
    {close : RunEvent} (h : run.Closes result stop close) {ruleset : String} {nullSafe : Bool}
    {before after : List LogEntry} : (close.entry ruleset nullSafe).Agrees before after := by
  cases h with
  | completed => exact RunEvent.agrees_of_plain (by simp [RunEvent.name]) rfl
  | failed => exact RunEvent.agrees_of_plain (by simp [RunEvent.name]) rfl

theorem exists_account (h : run.status = .pending)
    (hends : (∃ report, run.execute.1 = .ok report) ∨ ∃ e, run.execute.1 = .error (.rule e)) :
    ∃ events stop close, run.execute.2.2 = .started run.rules.length :: events ++ [close] ∧
      Account run.nullSafe run.facts run.progress run.rules events run.execute.2.1.progress stop ∧
      run.Closes run.execute.1 stop close := by
  have haccount : Account run.nullSafe run.facts run.progress run.rules run.passage.events
      run.passage.progress run.passage.stopped := passRules_account _ _ _ _
  have hexecutes := executes h
  generalize run.execute = execution at hends hexecutes ⊢
  cases hexecutes with
  | completed hs =>
    rw [hs] at haccount
    exact ⟨_, _, _, rfl, haccount, .completed _⟩
  | failed hs =>
    rw [hs] at haccount
    exact ⟨_, _, _, rfl, haccount, .failed _ _⟩
  | stalled => rcases hends with ⟨_, hresult⟩ | ⟨_, hresult⟩ <;> cases hresult

/-- A report is of the progress that was made. -/
theorem report_of_execute (h : run.status = .pending) {report : Report} (hr : run.execute.1 = .ok report) :
    report.outputs = run.execute.2.1.progress.derived ∧
      report.executed = run.execute.2.1.progress.executed := by
  have hexecutes := executes h
  generalize run.execute = execution at hr hexecutes ⊢
  cases hexecutes with
  | completed =>
    cases hr
    exact ⟨rfl, rfl⟩
  | failed | stalled => cases hr

section

variable {n : Nat} {events : List RunEvent} {stop : Option (Rule × Halt)} {close : RunEvent}
  {result : Except RunError Report} (hevents : run.execute.2.2 = .started n :: events ++ [close])
  (hcloses : run.Closes result stop close)

include hevents hcloses

theorem writes_execute :
    run.execute.2.2.filterMap RunEvent.write? = events.filterMap RunEvent.write? := by
  rw [hevents, List.cons_append, List.filterMap_cons_none rfl, List.filterMap_append,
    List.filterMap_cons_none hcloses.write?_eq_none, List.filterMap_nil, List.append_nil]

theorem agrees_of_log {p q : Progress} {rs : List Rule} (hp : p.derived = [])
    (haccount : Account run.nullSafe run.facts p rs events q stop) {before after : List LogEntry}
    {e : LogEntry} (hlog : run.log = before ++ e :: after) : e.Agrees before after := by
  have hagree : Agree [] run.log [] := by
    rw [log, hevents, List.map_append, agree_append]
    refine ⟨⟨RunEvent.agrees_of_plain (by simp [RunEvent.name]) rfl, ?_⟩, hcloses.agrees, trivial⟩
    refine haccount.agree ?_ _
    rw [hp]
    exact replay_append [] run.ruleset run.nullSafe [.started n]
  simpa using hagree.agrees hlog

end

end

/-- The log of a run that reports or fails with the error of a rule is its start, the blocks of the rules that
are reached, and its close. It determines the outputs and their order, and how many rules fired. -/
theorem log_determines {id ruleset : String} {rules : List Rule} {nullSafe : Bool}
    {facts : List (Key × Value)} {run : Run} (hnew : new id rules ruleset nullSafe facts = .ok run)
    (hends : (∃ report, run.execute.1 = .ok report) ∨ ∃ e, run.execute.1 = .error (.rule e)) :
    (∃ known events stop close, Accepted facts known ∧
      run.execute.2.2 = .started rules.length :: events ++ [close] ∧
      Account nullSafe known .start rules events run.execute.2.1.progress stop ∧
      run.Closes run.execute.1 stop close) ∧
    run.execute.2.1.progress.derived = replay run.log ∧
    run.execute.2.1.progress.executed = run.log.countP (·.event = "rule_fired") ∧
    (∀ report, run.execute.1 = .ok report →
      report.outputs = replay run.log ∧ report.executed = run.log.countP (·.event = "rule_fired")) ∧
    ∀ before e after, run.log = before ++ e :: after → e.Agrees before after := by
  obtain ⟨closed, hclosed, hrun⟩ := bind_eq_ok.mp hnew
  cases hrun
  obtain ⟨events, stop, close, hevents, haccount, hcloses⟩ := exists_account rfl hends
  obtain ⟨hderived, hexecuted⟩ := haccount.writes
  rw [← writes_execute hevents hcloses] at hderived hexecuted
  have hreplay := hderived.trans (replay_append [] ruleset nullSafe _).symm
  have hcount := (hexecuted.trans (Nat.zero_add _)).trans (countP_fired ruleset nullSafe _).symm
  refine ⟨⟨_, events, stop, close, ⟨closed, hclosed, rfl⟩, hevents, haccount, hcloses⟩, hreplay, hcount,
    fun report hreport => ?_, fun before e after hlog => agrees_of_log hevents hcloses rfl haccount hlog⟩
  obtain ⟨houtputs, hfired⟩ := report_of_execute rfl hreport
  exact ⟨houtputs.trans hreplay, hfired.trans hcount⟩

/-- The second rule adds to the age of nobody, which a null-safe run forgives. -/
theorem log_determines_ofPerson :
    ∃ run, Executor.ofPerson.start [] none = .ok run ∧
      Entries.keys (replay run.log) = ["version", "age"] ∧
      run.log.countP (·.event = "rule_fired") = 2 := by
  have hnew : Executor.ofPerson.start [] none = _ := Executor.start_eq ⟨[], rfl, rfl⟩ none
  have hrun : (Executor.ofPerson.start [] none).toOption.map (fun run =>
      (run.execute.1.isOk, Entries.keys run.execute.2.1.progress.derived,
        run.execute.2.1.progress.executed)) = some (true, ["version", "age"], 2) := by
    decide +kernel
  rw [hnew] at hrun
  obtain ⟨hok, hprogress⟩ := Prod.mk.inj (Option.some.inj hrun)
  obtain ⟨hkeys, hexecuted⟩ := Prod.mk.inj hprogress
  refine ⟨_, hnew, ?_⟩
  obtain ⟨-, hderived, hcount, -⟩ := log_determines hnew (.inl (isOk_iff.mp hok))
  rw [← hderived, ← hcount]
  exact ⟨hkeys, hexecuted⟩

end Run

end Rulebook
