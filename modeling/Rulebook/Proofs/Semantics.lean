import Mathlib.Data.List.Induction
import Rulebook.Proofs.Soundness

set_option autoImplicit false

/-!
What a run comes to, told without the run: the rules fire or skip one after the other, each in the
context of the facts and of what was written before it. The outputs stand in the order in which their
names were first written, each with what was written last.
-/

namespace Rulebook

/-- The value that was last written under a name. -/
def lastWrite (fired : List (Rule × Value)) (name : String) : Option Value :=
  (fired.reverse.find? fun w => w.1.output = name).map (·.2)

/-- The outputs of some writes: the names in the order of their first writes, with the last values. -/
def written (fired : List (Rule × Value)) : Bindings :=
  Entries.collect (fired.map (·.1.output)).eraseDups (lastWrite fired)

/-- Rules pass in order: each one skips, or fires and writes, in the context of the writes before it. -/
inductive Trail (nullSafe : Bool) (facts : Bindings) : List Rule → List (Rule × Value) → Prop
  | start : Trail nullSafe facts [] []
  | skip {rs : List Rule} {fired : List (Rule × Value)} {r : Rule} : Trail nullSafe facts rs fired →
      r.Skips nullSafe ⟨facts, written fired⟩ → Trail nullSafe facts (rs ++ [r]) fired
  | fire {rs : List Rule} {fired : List (Rule × Value)} {r : Rule} {v : Value} :
      Trail nullSafe facts rs fired → r.Fires nullSafe ⟨facts, written fired⟩ v →
      Trail nullSafe facts (rs ++ [r]) (fired ++ [(r, v)])

/-! ### What was written -/

theorem lastWrite_append (fired : List (Rule × Value)) (r : Rule) (v : Value) (name : String) :
    lastWrite (fired ++ [(r, v)]) name = if r.output = name then some v else lastWrite fired name := by
  simp only [lastWrite, List.reverse_append, List.reverse_singleton, List.singleton_append,
    List.find?_cons]
  by_cases h : r.output = name <;> simp [h]

theorem isSome_lastWrite_iff {fired : List (Rule × Value)} {name : String} :
    (lastWrite fired name).isSome = true ↔ name ∈ fired.map (·.1.output) := by
  simp [lastWrite, List.find?_isSome]

theorem eraseDups_append_singleton (names : List String) (name : String) :
    (names ++ [name]).eraseDups =
      if name ∈ names then names.eraseDups else names.eraseDups ++ [name] := by
  rw [List.eraseDups_append]
  by_cases h : name ∈ names <;> simp [List.removeAll, h, List.eraseDups_cons]

theorem nodup_eraseDups (names : List String) : names.eraseDups.Nodup := by
  induction names using List.reverseRecOn with
  | nil => simp
  | append_singleton names name ih =>
    rw [eraseDups_append_singleton]
    split
    · exact ih
    · next h => exact ih.append (List.nodup_singleton name) (by simpa [List.mem_eraseDups] using h)

theorem keys_written (fired : List (Rule × Value)) :
    Entries.keys (written fired) = (fired.map (·.1.output)).eraseDups := by
  refine Entries.keys_collect fun name hname => ?_
  exact isSome_lastWrite_iff.mpr (List.mem_eraseDups.mp hname)

theorem get?_written (fired : List (Rule × Value)) (name : String) :
    Entries.get? (written fired) name = lastWrite fired name := by
  rw [written, Entries.get?_collect]
  split
  · rfl
  · next h =>
    rw [List.mem_eraseDups, ← isSome_lastWrite_iff, Option.not_isSome_iff_eq_none] at h
    exact h.symm

theorem written_append (fired : List (Rule × Value)) (r : Rule) (v : Value) :
    written (fired ++ [(r, v)]) = Entries.put (written fired) r.output v := by
  have hkeys : Entries.keys (written (fired ++ [(r, v)])) =
      Entries.keys (Entries.put (written fired) r.output v) := by
    rw [Entries.keys_put, keys_written, keys_written, List.map_append, List.map_singleton,
      eraseDups_append_singleton]
    simp only [List.mem_eraseDups]
  refine Entries.ext_of_keys hkeys ?_ fun name => ?_
  · rw [keys_written]
    exact nodup_eraseDups _
  · rw [get?_written, lastWrite_append, Entries.get?_put, get?_written]

/-! ### A trail is how the rules are passed -/

section

variable {nullSafe : Bool} {facts : Bindings} {rs : List Rule} {fired : List (Rule × Value)}

theorem Trail.sublist (h : Trail nullSafe facts rs fired) : (fired.map (·.1)).Sublist rs := by
  induction h with
  | start => exact .slnil
  | skip _ _ ih => exact ih.trans (List.sublist_append_left _ _)
  | fire _ _ ih =>
    rw [List.map_append]
    exact ih.append (List.Sublist.refl _)

/-- Passing one more rule, from where the rules before it were passed to. -/
theorem passed_append_singleton {p q : Progress} {r : Rule} {done : Option Value}
    (hs : (passRules nullSafe facts p rs).stopped = none)
    (hp : (passRules nullSafe facts p rs).progress = q)
    (he : r.effect nullSafe (q.context facts) = .ok done) :
    (passRules nullSafe facts p (rs ++ [r])).stopped = none ∧
      (passRules nullSafe facts p (rs ++ [r])).progress = q.after r done := by
  obtain ⟨hprogress, hstopped⟩ := passRules_append_of_passed hs [r]
  rw [hprogress, hstopped, hp, passRules_of_ok he]
  exact ⟨rfl, rfl⟩

theorem Trail.passed (h : Trail nullSafe facts rs fired) :
    (passRules nullSafe facts .start rs).stopped = none ∧
      (passRules nullSafe facts .start rs).progress = ⟨written fired, fired.length⟩ := by
  induction h with
  | start => exact ⟨rfl, rfl⟩
  | skip _ hskip ih =>
    obtain ⟨hs, hp⟩ := ih
    exact passed_append_singleton hs hp (Rule.effect_eq_none_iff.mpr hskip)
  | fire _ hfire ih =>
    obtain ⟨hs, hp⟩ := ih
    obtain ⟨hs', hp'⟩ := passed_append_singleton hs hp (Rule.effect_eq_some_iff.mpr hfire)
    refine ⟨hs', hp'.trans ?_⟩
    rw [written_append, List.length_append, List.length_singleton]
    rfl

theorem exists_trail_of_passed (h : (passRules nullSafe facts .start rs).stopped = none) :
    ∃ fired, Trail nullSafe facts rs fired := by
  -- a trail grows at its end, so the induction takes the last rule away
  induction rs using List.reverseRecOn with
  | nil => exact ⟨[], .start⟩
  | append_singleton rs r ih =>
    have hpassed := passed_of_append h
    obtain ⟨fired, htrail⟩ := ih hpassed
    have hprogress := htrail.passed.2
    have hstopped := (passRules_append_of_passed hpassed [r]).2
    cases he : r.effect nullSafe ⟨facts, written fired⟩ with
    | error k =>
      rw [hprogress, passRules_of_error he, h] at hstopped
      cases hstopped
    | ok done =>
      cases done with
      | none => exact ⟨fired, htrail.skip (Rule.effect_eq_none_iff.mp he)⟩
      | some v => exact ⟨fired ++ [(r, v)], htrail.fire (Rule.effect_eq_some_iff.mp he)⟩

theorem passed_iff_trail :
    (passRules nullSafe facts .start rs).stopped = none ↔ ∃ fired, Trail nullSafe facts rs fired :=
  ⟨exists_trail_of_passed, fun ⟨_, htrail⟩ => htrail.passed.1⟩

/-- Where the rules stop, a trail leads up to a rule that halts in the context of what was written. -/
theorem exists_trail_of_haltsAt {i : Nat} {h : Halt} (hat : HaltsAt nullSafe facts .start rs i h) :
    ∃ before r after fired, rs = before ++ r :: after ∧ before.length = i ∧
      Trail nullSafe facts before fired ∧ r.Halts nullSafe ⟨facts, written fired⟩ h := by
  have hlt := hat.lt_length
  have hsplit : rs = rs.take i ++ rs[i] :: rs.drop (i + 1) := by
    rw [List.getElem_cons_drop, List.take_append_drop]
  have hlength : (rs.take i).length = i := List.length_take_of_le (Nat.le_of_lt hlt)
  -- the rules before are passed: a halt among them would be the one at `i`
  have hpassed : (passRules nullSafe facts .start (rs.take i)).stopped = none := by
    refine stopped_eq_none_iff.mpr fun j k hj => ?_
    have hij := hj.lt_length
    have happ := hj.append (rs[i] :: rs.drop (i + 1))
    rw [← hsplit] at happ
    obtain ⟨rfl, -⟩ := happ.unique hat
    omega
  obtain ⟨fired, htrail⟩ := exists_trail_of_passed hpassed
  refine ⟨rs.take i, rs[i], rs.drop (i + 1), fired, hsplit, hlength, htrail, ?_⟩
  rw [hsplit, haltsAt_append_iff_of_passed hpassed] at hat
  obtain ⟨j, hj, hrest⟩ := hat
  rw [hlength] at hj
  rw [htrail.passed.2] at hrest
  obtain rfl : j = 0 := by omega
  cases hrest with
  | here he => exact Rule.effect_eq_error_iff.mp he

end

/-! ### What a run reports -/

/-- A report tells of some writes. -/
structure Report.Records (report : Report) (fired : List (Rule × Value)) : Prop where
  written_iff : ∀ name, name ∈ Entries.keys report.outputs ↔ ∃ w ∈ fired, w.1.output = name
  last : ∀ name, Entries.get? report.outputs name = lastWrite fired name
  first : Entries.keys report.outputs = (fired.map (·.1.output)).eraseDups
  executed : report.executed = fired.length

theorem Executor.records_report (x : Executor) (fired : List (Rule × Value)) :
    (x.report ⟨written fired, fired.length⟩).Records fired where
  written_iff name := by
    show name ∈ Entries.keys (written fired) ↔ _
    rw [keys_written, List.mem_eraseDups, List.mem_map]
  last name := get?_written fired name
  first := keys_written fired
  executed := rfl

/-- A run that was not executed before ends as completed exactly if it reports. -/
theorem Run.completed_iff {run : Run} (h : run.status = .pending) :
    run.execute.2.1.status = .completed ↔ ∃ report, run.execute.1 = .ok report := by
  cases hs : (passRules run.nullSafe run.facts run.progress run.rules).stopped with
  | none => simp [execute, h, hs]
  | some k =>
    obtain ⟨r, halt⟩ := k
    cases halt <;> simp [execute, h, hs]

namespace Executor

variable {x : Executor} {nullSafe : Option Bool} {facts : List (Key × Value)} {known : Bindings}

theorem execute_of_run (hx : x.rules ≠ []) {run : Run} (hstart : x.start facts nullSafe = .ok run)
    {report : Report} (h : (x.run facts nullSafe).1 = .ok report) :
    ∃ report, run.execute.1 = .ok report := by
  rw [run_of_start hx hstart] at h
  cases he : run.execute.1 with
  | ok report => exact ⟨report, rfl⟩
  | error e =>
    rw [he] at h
    cases h

theorem run_of_trail (hx : x.rules ≠ []) (hf : Accepted facts known) {fired : List (Rule × Value)}
    (h : Trail (nullSafe.getD x.nullSafe) known x.rules fired) :
    (x.run facts nullSafe).1 = .ok (x.report ⟨written fired, fired.length⟩) := by
  obtain ⟨hstopped, hprogress⟩ := h.passed
  rw [run_eq hx hf, outcome, passage, hstopped, hprogress]

theorem run_of_no_trail (hx : x.rules ≠ []) (hf : Accepted facts known)
    (h : ¬ ∃ fired, Trail (nullSafe.getD x.nullSafe) known x.rules fired) :
    ∃ before r after fired halt, x.rules = before ++ r :: after ∧
      Trail (nullSafe.getD x.nullSafe) known before fired ∧
      r.Halts (nullSafe.getD x.nullSafe) ⟨known, written fired⟩ halt ∧
      match halt with
      | .cause c => (x.run facts nullSafe).1 = .error (.run (.rule (x.failure r c)))
      | .crash c => (x.run facts nullSafe).1 = .error (.run (.crash c)) ∧ c.IsNumeric := by
  rw [← passed_iff_trail] at h
  obtain ⟨⟨s, halt⟩, hs⟩ := Option.ne_none_iff_exists'.mp h
  obtain ⟨i, hi, hat⟩ := exists_haltsAt_of_stopped hs
  obtain ⟨before, r, after, fired, hrules, rfl, htrail, hhalts⟩ := exists_trail_of_haltsAt hat
  obtain rfl : r = s := by simpa [hrules] using hi
  refine ⟨before, r, after, fired, halt, hrules, htrail, hhalts, ?_⟩
  cases halt with
  | cause c => exact (run_rule_iff hx hf).mpr ⟨_, r, c, hi, hat, rfl⟩
  | crash c =>
    exact ⟨(run_crash_iff hx hf).mpr ⟨_, hat⟩, hat.isNumeric hf.closed Bindings.closed_nil⟩

/-- A run reports exactly if the rules leave a trail. Then the run is completed, and the report tells of
the writes on the trail, which some of the rules made in their order. If not, then the first rule that
halts is what the run fails with, or what was computed there crashes on its numbers. -/
theorem run_semantics (x : Executor) (nullSafe : Option Bool) (hx : x.rules ≠ [])
    (hf : Accepted facts known) :
    ((∃ report, (x.run facts nullSafe).1 = .ok report) ↔
        ∃ fired, Trail (nullSafe.getD x.nullSafe) known x.rules fired) ∧
      (∀ fired, Trail (nullSafe.getD x.nullSafe) known x.rules fired →
        (fired.map (·.1)).Sublist x.rules ∧ ∃ run report,
          x.start facts nullSafe = .ok run ∧ run.execute.2.1.status = .completed ∧
            (x.run facts nullSafe).1 = .ok report ∧ report.Records fired ∧
            report.total = x.rules.length) ∧
      ((¬ ∃ fired, Trail (nullSafe.getD x.nullSafe) known x.rules fired) →
        ∃ before r after fired halt, x.rules = before ++ r :: after ∧
          Trail (nullSafe.getD x.nullSafe) known before fired ∧
          r.Halts (nullSafe.getD x.nullSafe) ⟨known, written fired⟩ halt ∧
          match halt with
          | .cause c => (x.run facts nullSafe).1 = .error (.run (.rule (x.failure r c)))
          | .crash c => (x.run facts nullSafe).1 = .error (.run (.crash c)) ∧ c.IsNumeric) := by
  refine ⟨?_, ?_, run_of_no_trail hx hf⟩
  · constructor
    · rintro ⟨report, hreport⟩
      exact passed_iff_trail.mp ((run_ok_iff hx hf).mp hreport).1
    · rintro ⟨fired, htrail⟩
      exact ⟨_, run_of_trail hx hf htrail⟩
  · intro fired htrail
    have hreport := run_of_trail hx hf htrail
    have hstart := start_eq (x := x) hf nullSafe
    refine ⟨htrail.sublist, _, _, hstart, (Run.completed_iff rfl).mpr ?_, hreport,
      x.records_report fired, rfl⟩
    exact execute_of_run hx hstart hreport

/-- Two rules that fire for one output, and between them one whose transformation is not even read. -/
def ofAge : Executor where
  rules :=
    [⟨"adult", "", "age >= 18", "age - 18", "years", by decide, by decide, by decide⟩,
      ⟨"minor", "", "age < 18", "(", "years", by decide, by decide, by decide⟩,
      ⟨"double", "", "years > 1", "years * 2", "years", by decide, by decide, by decide⟩]
  ruleset := "ages"
  nullSafe := true

def twenty : List (Key × Value) := [(.text "age", .number (.int 20))]

theorem run_semantics_ofAge :
    ∃ fired, Trail true (.ofEntries twenty) ofAge.rules fired ∧ fired.length = 2 ∧
      (fired.map (·.1.output)).eraseDups = ["years"] := by
  have hx : ofAge.rules ≠ [] := List.cons_ne_nil _ _
  have hf : Accepted twenty (.ofEntries twenty) := ⟨twenty, rfl, rfl⟩
  obtain ⟨hreports, hrecords, -⟩ := run_semantics ofAge none hx hf
  have hrun : (ofAge.run twenty none).1.toOption.map
      (fun report => (report.executed, Entries.keys report.outputs)) = some (2, ["years"]) := by
    decide +kernel
  obtain ⟨report, hreport, hcounts⟩ := Option.map_eq_some_iff.mp hrun
  have hok : (ofAge.run twenty none).1 = .ok report := by
    cases h : (ofAge.run twenty none).1 with
    | ok r =>
      rw [h] at hreport
      cases hreport
      rfl
    | error e =>
      rw [h] at hreport
      cases hreport
  obtain ⟨fired, htrail⟩ := hreports.mp ⟨report, hok⟩
  obtain ⟨-, -, other, -, -, hother, hrecorded, -⟩ := hrecords fired htrail
  rw [hok] at hother
  cases hother
  obtain ⟨hexecuted, hkeys⟩ := Prod.mk.inj hcounts
  exact ⟨fired, htrail, hrecorded.executed.symm.trans hexecuted, hrecorded.first.symm.trans hkeys⟩

end Executor

end Rulebook
