import Mathlib.Data.List.Perm.Subperm
import Rulebook.Proofs.Endings

set_option autoImplicit false

/-!
A run that is executed any number of times. The first execution passes the rules and decides all that can be seen of
the run from then on. Every further one is refused and changes nothing, whatever way the first one ended. It is assumed
that the log takes every event: a failure to write one would end an execution behind it.
-/

namespace Rulebook

/-- A run after some executions, with their results and with all events in order. -/
structure History where
  results : List (Except RunError Report)
  run : Run
  log : List RunEvent

namespace History

def execute (h : History) : History :=
  ⟨h.results ++ [h.run.execute.1], h.run.execute.2.1, h.log ++ h.run.execute.2.2⟩

/-- What a run has come to when it was executed a number of times. -/
def of (run : Run) : Nat → History
  | 0 => ⟨[], run, []⟩
  | k + 1 => (of run k).execute

end History

/-! ### The rules that were passed -/

section

variable {nullSafe : Bool} {facts : Bindings} {rs : List Rule}

end

/-- The outputs of some progress have different names, each of which a rule writes. They are no more than the rules
that fired, and these are no more than there are rules. -/
structure Progress.Bounded (rs : List Rule) (p : Progress) : Prop where
  distinct : (Entries.keys p.derived).Nodup
  size : p.derived.length ≤ p.executed
  executed : p.executed ≤ rs.length
  outputs : ∀ name ∈ Entries.keys p.derived, ∃ r ∈ rs, r.output = name

section

variable {nullSafe : Bool} {facts : Bindings} {rs : List Rule}

theorem Trail.bounded {fired : List (Rule × Value)} (h : Trail nullSafe facts rs fired) :
    Progress.Bounded rs ⟨written fired, fired.length⟩ where
  distinct := by
    rw [keys_written]
    exact nodup_eraseDups _
  size := by
    have hkeys := List.subperm_of_subset (nodup_eraseDups (fired.map (·.1.output))) fun _ => List.mem_eraseDups.mp
    have hlength := hkeys.length_le
    rwa [← keys_written, Entries.keys, List.length_map, List.length_map] at hlength
  executed := by
    have hlength := h.sublist.length_le
    rwa [List.length_map] at hlength
  outputs name hname := by
    rw [keys_written, List.mem_eraseDups, List.mem_map] at hname
    obtain ⟨w, hw, rfl⟩ := hname
    exact ⟨w.1, h.sublist.subset (List.mem_map_of_mem hw), rfl⟩

theorem Progress.Bounded.mono {before : List Rule} {p : Progress} (h : p.Bounded before) (hrs : before <+: rs) :
    p.Bounded rs where
  distinct := h.distinct
  size := h.size
  executed := Nat.le_trans h.executed hrs.length_le
  outputs name hname := by
    obtain ⟨r, hr, hname⟩ := h.outputs name hname
    exact ⟨r, hrs.subset hr, hname⟩

end

/-! ### Executions -/

namespace Run

variable {run : Run}

end Run

namespace History

variable {h : History} {run : Run} {k : Nat}

/-- What holds of a run of some rules after it was executed `k` times. -/
structure Holds (rules : List Rule) (k : Nat) (h : History) : Prop where
  results : h.results.length = k
  pending : h.run.status = .pending ↔ k = 0
  untouched : k = 0 → h.run.progress.derived = [] ∧ h.run.progress.executed = 0
  bounded : h.run.progress.Bounded rules
  raised : ∀ e, h.results[0]? = some (.error e) → h.run.progress.executed < rules.length
  reported : ∀ report, h.results[0]? = some (.ok report) →
    report.outputs = h.run.progress.derived ∧ report.executed = h.run.progress.executed
  again : 0 < k →
    h.execute = ⟨h.results ++ [.error (.already h.run.id h.run.status)], h.run, h.log⟩

end History

end Rulebook
