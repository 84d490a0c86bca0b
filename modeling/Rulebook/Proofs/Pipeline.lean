import Rulebook.Proofs.Roots
import Rulebook.Proofs.Soundness

set_option autoImplicit false

/-!
Rules in two lists, one after the other: the second list is run over the facts overridden by the outputs
of the first. What was derived before and what is known as a fact are one to every rule, so nothing but
the bookkeeping tells the two runs from one run over the joined lists.
-/

namespace Rulebook

/-! ### Facts overridden by outputs -/

/-- A value under a name: in the place of the entry under that name, or behind all entries. -/
def putFact : List (Key × Value) → String → Value → List (Key × Value)
  | [], name, v => [(.text name, v)]
  | (k, w) :: es, name, v =>
    if Key.text name == k then (k, v) :: es else (k, w) :: putFact es name v

def overrideFacts (facts : List (Key × Value)) (outputs : Bindings) : List (Key × Value) :=
  outputs.foldl (fun acc o => putFact acc o.1 o.2) facts

theorem ofEntries_putFact (es : List (Key × Value)) (name : String) (v : Value) :
    Bindings.ofEntries (putFact es name v) = Entries.put (Bindings.ofEntries es) name v := by
  induction es with
  | nil => simp [putFact, Bindings.ofEntries, Entries.put]
  | cons e es ih =>
    obtain ⟨k, w⟩ := e
    rw [putFact]
    by_cases hk : (Key.text name == k) = true
    · rw [if_pos hk, Value.eq_text_of_beq hk]
      simp [Bindings.ofEntries, Entries.put]
    · rw [if_neg hk]
      simp only [Bindings.ofEntries] at ih
      cases k with
      | text s =>
        cases hs : s.toString? with
        | none => simp [Bindings.ofEntries, hs, ih]
        | some other =>
          have hne : other ≠ name := by
            rintro rfl
            rw [Text.eq_ofString hs] at hk
            simp at hk
          simp [Bindings.ofEntries, hs, ih, Entries.put, hne]
      | _ => simp [Bindings.ofEntries, ih]

theorem normalizeEntries_putFact {es closed : List (Key × Value)}
    (h : Value.normalizeEntries es = .ok closed) (name : String) {v : Value} (hv : v.Closed) :
    Value.normalizeEntries (putFact es name v) = .ok (putFact closed name v) := by
  induction es generalizing closed with
  | nil =>
    rw [Value.normalizeEntries] at h
    cases h
    rw [putFact, Value.normalizeEntries, Value.normalize_of_closed hv]
    rfl
  | cons e es ih =>
    obtain ⟨k, w⟩ := e
    cases k with
    | text s =>
      rw [Value.normalizeEntries] at h
      obtain ⟨w', hw, h⟩ := bind_eq_ok.mp h
      obtain ⟨rest, hrest, h⟩ := bind_eq_ok.mp h
      cases h
      rw [putFact, putFact]
      split
      · rw [Value.normalizeEntries, Value.normalize_of_closed hv, hrest]
        rfl
      · rw [Value.normalizeEntries, hw, ih hrest]
        rfl
    | _ => simp [Value.normalizeEntries] at h

theorem Accepted.putFact {facts : List (Key × Value)} {known : Bindings} (h : Accepted facts known)
    (name : String) {v : Value} (hv : v.Closed) :
    Accepted (putFact facts name v) (Entries.put known name v) := by
  obtain ⟨closed, hclosed, rfl⟩ := h
  exact ⟨_, normalizeEntries_putFact hclosed name hv, (ofEntries_putFact closed name v).symm⟩

/-- Closed outputs are accepted as facts, unchanged and under their names. -/
theorem Accepted.overrideFacts {facts : List (Key × Value)} {known outputs : Bindings}
    (h : Accepted facts known) (ho : outputs.Closed) :
    Accepted (overrideFacts facts outputs) (Entries.override known outputs) := by
  induction outputs generalizing facts known with
  | nil => exact h
  | cons o outputs ih =>
    obtain ⟨hv, hrest⟩ := List.forall_mem_cons.mp ho
    exact ih (h.putFact o.1 hv) hrest

/-! ### The two contexts -/

/-- A value is found alike whether it was derived before or is known as a fact. -/
theorem Context.find?_override {known base derived : Bindings} (hbase : (Entries.keys base).Nodup)
    (hderived : (Entries.keys derived).Nodup) (name : String) :
    Context.find? ⟨known, Entries.override base derived⟩ name =
      Context.find? ⟨Entries.override known base, derived⟩ name := by
  simp only [find?, Entries.get?_override hbase, Entries.get?_override hderived]
  cases Entries.get? derived name with
  | some v => rfl
  | none =>
    cases Entries.get? base name with
    | some v => rfl
    | none => rfl

/-- Progress that goes on from outputs and a count, and the same progress made from the start. -/
structure Continues (base : Bindings) (executed : Nat) (p q : Progress) : Prop where
  derived : p.derived = Entries.override base q.derived
  executed : p.executed = executed + q.executed
  nodup : (Entries.keys q.derived).Nodup

section

variable {nullSafe : Bool} {known base : Bindings} {executed : Nat} {p q : Progress} {rs : List Rule}

theorem Continues.fire (h : Continues base executed p q) (r : Rule) (v : Value) :
    Continues base executed (p.fire r v) (q.fire r v) where
  derived := by
    rw [Progress.fire, Progress.fire, h.derived, Entries.override_put h.nodup]
  executed := by
    rw [Progress.fire, Progress.fire, h.executed, Nat.add_assoc]
  nodup := Entries.nodup_keys_put h.nodup r.output v

theorem Continues.effect_eq (h : Continues base executed p q) (hbase : (Entries.keys base).Nodup)
    (r : Rule) :
    r.effect nullSafe (p.context known) =
      r.effect nullSafe (q.context (Entries.override known base)) := by
  refine Rule.effect_congr (Context.agreeOn_of_find? (fun name => ?_) r.roots)
  rw [Progress.context, Progress.context, h.derived]
  exact Context.find?_override hbase h.nodup name

theorem continues_lockstep (hbase : (Entries.keys base).Nodup) :
    Lockstep nullSafe known (Entries.override known base) (Continues base executed) rs where
  effect r _ _ _ h := h.effect_eq hbase r
  fire r _ _ _ v h := h.fire r v

end

/-! ### Runs of executors -/

/-- The report of rules that were run after those of another report. -/
def Report.followedBy (first second : Report) : Report where
  ruleset := first.ruleset
  outputs := Entries.override first.outputs second.outputs
  total := first.total + second.total
  executed := first.executed + second.executed

namespace Executor

variable {nullSafe : Option Bool} {facts : List (Key × Value)} {known : Bindings} {rs ss : List Rule}

/-- Rules behind one that fails are not seen. -/
theorem run_append_of_error (x : Executor) (hr : rs ≠ []) (hf : Accepted facts known)
    {e : ExecuteError} (h : ((x.withRules rs).run facts nullSafe).1 = .error e) :
    ((x.withRules (rs ++ ss)).run facts nullSafe).1 = .error e := by
  have happend : (x.withRules (rs ++ ss)).rules ≠ [] := List.append_ne_nil_of_left_ne_nil hr ss
  have hfirst : ((x.withRules rs).run facts nullSafe).1 = _ := run_eq hr hf
  cases hs : ((x.withRules rs).passage nullSafe known).stopped with
  | none =>
    rw [h, outcome, hs] at hfirst
    cases hfirst
  | some k =>
    have hsame : (x.withRules (rs ++ ss)).passage nullSafe known =
        (x.withRules rs).passage nullSafe known := passRules_append_of_stopped hs
    rw [run_eq happend hf, hsame, ← h, hfirst, outcome, outcome, hs]
    obtain ⟨r, halt⟩ := k
    cases halt <;> rfl

/-- The progress of the rules behind others, and the progress of a run that begins with them. -/
theorem continues_append (x : Executor)
    (hpassed : ((x.withRules rs).passage nullSafe known).stopped = none) (ss : List Rule) :
    let first := ((x.withRules rs).passage nullSafe known).progress
    let whole := (x.withRules (rs ++ ss)).passage nullSafe known
    let rest := (x.withRules ss).passage nullSafe (Entries.override known first.derived)
    Continues first.derived first.executed whole.progress rest.progress ∧
      whole.stopped = rest.stopped ∧
      ∀ i k, (x.withRules (rs ++ ss)).HaltsAt nullSafe known (rs.length + i) k ↔
        (x.withRules ss).HaltsAt nullSafe (Entries.override known first.derived) i k := by
  intro first whole rest
  have hnodup : (Entries.keys first.derived).Nodup := passRules_nodup List.nodup_nil
  have hstart : Continues first.derived first.executed first .start :=
    ⟨rfl, (Nat.add_zero first.executed).symm, List.nodup_nil⟩
  have hlockstep : Lockstep (nullSafe.getD x.nullSafe) known (Entries.override known first.derived)
      (Continues first.derived first.executed) ss := continues_lockstep hnodup
  obtain ⟨hcontinues, hstopped⟩ := hlockstep.passRules hstart
  obtain ⟨hprogress, hstop⟩ := passRules_append_of_passed hpassed ss
  refine ⟨?_, hstop.trans hstopped, fun i k => ?_⟩
  · rw [show whole.progress = _ from hprogress]
    exact hcontinues
  · refine (haltsAt_append_iff_of_passed hpassed).trans (Iff.trans ?_ (hlockstep.haltsAt_iff hstart))
    constructor
    · rintro ⟨j, hij, hat⟩
      obtain rfl : i = j := Nat.add_left_cancel hij
      exact hat
    · exact fun hat => ⟨i, rfl, hat⟩

theorem report_append (x : Executor) (rs ss : List Rule) {p q whole : Progress}
    (h : Continues p.derived p.executed whole q) :
    (x.withRules (rs ++ ss)).report whole =
      ((x.withRules rs).report p).followedBy ((x.withRules ss).report q) := by
  simp only [report, Report.followedBy, withRules, h.derived, h.executed, List.length_append]

/-- A run over two lists of rules is a run over the first and then, if that reports, a run over the
second with its outputs among the facts: with the same failure at the same rule, or with reports that
add up to the report of the one run. -/
theorem run_append (x : Executor) (nullSafe : Option Bool) (hr : rs ≠ []) (hs : ss ≠ [])
    (hf : Accepted facts known) :
    (∀ first, ((x.withRules rs).run facts nullSafe).1 = .ok first →
      Accepted (overrideFacts facts first.outputs) (Entries.override known first.outputs) ∧
        ((x.withRules (rs ++ ss)).run facts nullSafe).1 =
          ((x.withRules ss).run (overrideFacts facts first.outputs) nullSafe).1.map first.followedBy ∧
        (∀ second, ((x.withRules ss).run (overrideFacts facts first.outputs) nullSafe).1 = .ok second →
          Entries.keys (first.followedBy second).outputs = Entries.keys first.outputs ++
              (Entries.keys second.outputs).filter (· ∉ Entries.keys first.outputs) ∧
            ∀ name, Entries.get? (first.followedBy second).outputs name =
              (Entries.get? second.outputs name).or (Entries.get? first.outputs name)) ∧
        ∀ i k, (x.withRules (rs ++ ss)).HaltsAt nullSafe known (rs.length + i) k ↔
          (x.withRules ss).HaltsAt nullSafe (Entries.override known first.outputs) i k) ∧
      (∀ e, ((x.withRules rs).run facts nullSafe).1 = .error e →
        ((x.withRules (rs ++ ss)).run facts nullSafe).1 = .error e) ∧
      ∀ i k, (x.withRules rs).HaltsAt nullSafe known i k →
        (x.withRules (rs ++ ss)).HaltsAt nullSafe known i k := by
  refine ⟨fun first hfirst => ?_, fun e he => run_append_of_error x hr hf he,
    fun i k hat => hat.append ss⟩
  obtain ⟨hpassed, rfl⟩ := (run_ok_iff (x := x.withRules rs) hr hf).mp hfirst
  have hclosed : ((x.withRules rs).passage nullSafe known).progress.derived.Closed :=
    passRules_closed hf.closed Bindings.closed_nil
  have haccepted := hf.overrideFacts hclosed
  obtain ⟨hcontinues, hstopped, hhalts⟩ := x.continues_append hpassed ss
  have hrest : ((x.withRules ss).run (overrideFacts facts _) nullSafe).1 = _ := run_eq hs haccepted
  have hwhole : ((x.withRules (rs ++ ss)).run facts nullSafe).1 = _ :=
    run_eq (List.append_ne_nil_of_left_ne_nil hr ss) hf
  refine ⟨haccepted, ?_, fun second hsecond => ?_, hhalts⟩
  · rw [hwhole]
    have hreport := x.report_append rs ss hcontinues
    refine (outcome_map (x.withRules (rs ++ ss)) (x.withRules ss) rfl hstopped _ hreport).trans ?_
    exact congrArg _ hrest.symm
  · obtain ⟨-, rfl⟩ := (run_ok_iff (x := x.withRules ss) hs haccepted).mp hsecond
    exact ⟨Entries.keys_override hcontinues.nodup, Entries.get?_override hcontinues.nodup⟩

/-- A cost is doubled, over a total that is known already. -/
def doubling : List Rule :=
  [⟨"double", "", "cost > 2", "cost * 2", "total", by decide, by decide, by decide⟩]

def rating : List Rule :=
  [⟨"rate", "", "total > 30", "total - 30", "over", by decide, by decide, by decide⟩]

def costs : List (Key × Value) := [(.text "total", .number (.int 1)), (.text "cost", .number (.int 20))]

theorem run_append_costs :
    ∃ first, ((withRules ⟨[], "costs", true⟩ doubling).run costs none).1 = .ok first ∧
      ((withRules ⟨[], "costs", true⟩ (doubling ++ rating)).run costs none).1 =
        ((withRules ⟨[], "costs", true⟩ rating).run (overrideFacts costs first.outputs) none).1.map
          first.followedBy := by
  have hr : doubling ≠ [] := List.cons_ne_nil _ _
  have hs : rating ≠ [] := List.cons_ne_nil _ _
  have hf : Accepted costs (.ofEntries costs) := ⟨costs, rfl, rfl⟩
  have hrun : ((withRules ⟨[], "costs", true⟩ doubling).run costs none).1.isOk = true := by
    decide +kernel
  obtain ⟨hjoined, -, -⟩ := run_append ⟨[], "costs", true⟩ none hr hs hf
  cases h : ((withRules ⟨[], "costs", true⟩ doubling).run costs none).1 with
  | error e =>
    rw [h] at hrun
    cases hrun
  | ok first => exact ⟨first, rfl, (hjoined first h).2.1⟩

end Executor

end Rulebook
