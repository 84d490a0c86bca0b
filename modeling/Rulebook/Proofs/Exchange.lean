import Rulebook.Proofs.Roots
import Rulebook.Proofs.Soundness

set_option autoImplicit false

/-!
Two neighbouring rules that do not read what the other writes can change places. Which of the two outputs
is written first is seen in the order of the outputs, but by no rule.
-/

namespace Rulebook

/-- Two rules with different outputs, neither of which has a path from the output of the other. -/
structure Rule.Independent (r s : Rule) : Prop where
  output_ne : r.output ≠ s.output
  left : s.output ∉ r.roots
  right : r.output ∉ s.roots

theorem Rule.Independent.symm {r s : Rule} (h : r.Independent s) : s.Independent r where
  output_ne := h.output_ne.symm
  left := h.right
  right := h.left

/-- Progress that differs in nothing but the order of the outputs. -/
structure Alike (p q : Progress) : Prop where
  found : ∀ name, Entries.get? p.derived name = Entries.get? q.derived name
  executed : p.executed = q.executed
  nodup : (Entries.keys p.derived).Nodup
  nodup' : (Entries.keys q.derived).Nodup

namespace Alike

variable {nullSafe : Bool} {facts : Bindings} {p q : Progress} {rs : List Rule}

theorem fire (h : Alike p q) (r : Rule) (v : Value) : Alike (p.fire r v) (q.fire r v) where
  found name := by
    simp only [Progress.fire, Entries.get?_put, h.found]
  executed := by
    rw [Progress.fire, Progress.fire, h.executed]
  nodup := Entries.nodup_keys_put h.nodup r.output v
  nodup' := Entries.nodup_keys_put h.nodup' r.output v

theorem effect_eq (h : Alike p q) (r : Rule) :
    r.effect nullSafe (p.context facts) = r.effect nullSafe (q.context facts) := by
  refine Rule.effect_congr (Context.agreeOn_of_find? (fun name => ?_) r.roots)
  simp only [Context.find?, Progress.context, h.found]

theorem lockstep : Lockstep nullSafe facts facts Alike rs where
  effect r _ _ _ h := h.effect_eq r
  fire r _ _ _ v h := h.fire r v

theorem perm (h : Alike p q) : p.derived.Perm q.derived :=
  Entries.perm_of_get? h.nodup h.nodup' h.found

end Alike

/-! ### The two rules -/

section

variable {nullSafe : Bool} {facts : Bindings} {p : Progress} {r s : Rule}

/-- What a rule does is not changed by an output that it does not read. -/
theorem effect_after_eq (h : r.output ∉ s.roots) (done : Option Value) :
    s.effect nullSafe ((p.after r done).context facts) = s.effect nullSafe (p.context facts) := by
  cases done with
  | none => rfl
  | some v => exact Rule.effect_congr (Context.AgreeOn.setOutput h (p.context facts) v)

theorem alike_after_after (h : r.output ≠ s.output) (hp : (Entries.keys p.derived).Nodup)
    (done other : Option Value) :
    Alike ((p.after r done).after s other) ((p.after s other).after r done) := by
  have hself : ∀ q : Progress, (Entries.keys q.derived).Nodup → Alike q q :=
    fun q hq => ⟨fun _ => rfl, rfl, hq, hq⟩
  cases done with
  | none =>
    cases other with
    | none => exact hself p hp
    | some w => exact hself _ (Entries.nodup_keys_put hp s.output w)
  | some v =>
    cases other with
    | none => exact hself _ (Entries.nodup_keys_put hp r.output v)
    | some w =>
      refine ⟨fun name => ?_, rfl, ?_, ?_⟩
      · simp only [Progress.after, Progress.fire, Entries.get?_put]
        by_cases hs : s.output = name
        · have hr : r.output ≠ name := fun hr => h (hr.trans hs.symm)
          rw [if_pos hs, if_neg hr, if_pos hs]
        · rw [if_neg hs, if_neg hs]
      · exact Entries.nodup_keys_put (Entries.nodup_keys_put hp r.output v) s.output w
      · exact Entries.nodup_keys_put (Entries.nodup_keys_put hp s.output w) r.output v

theorem passRules_pair_of_ok (h : r.output ∉ s.roots) {done other : Option Value}
    (hr : r.effect nullSafe (p.context facts) = .ok done)
    (hs : s.effect nullSafe (p.context facts) = .ok other) :
    (passRules nullSafe facts p [r, s]).stopped = none ∧
      (passRules nullSafe facts p [r, s]).progress = (p.after r done).after s other := by
  have hafter := (effect_after_eq h done).trans hs
  rw [passRules_of_ok hr, passRules_of_ok hafter]
  exact ⟨rfl, rfl⟩

theorem passRules_pair_of_error (h : r.output ∉ s.roots) {k : Halt}
    (hk : r.effect nullSafe (p.context facts) = .error k ∨
      s.effect nullSafe (p.context facts) = .error k) :
    (passRules nullSafe facts p [r, s]).stopped ≠ none := by
  cases hr : r.effect nullSafe (p.context facts) with
  | error k' =>
    rw [passRules_of_error hr]
    exact Option.some_ne_none _
  | ok done =>
    rcases hk with hk | hk
    · rw [hr] at hk
      cases hk
    · have hafter := (effect_after_eq h done).trans hk
      rw [passRules_of_ok hr, passRules_of_error hafter]
      exact Option.some_ne_none _

/-- Both orders of two independent rules are passed, or neither is. -/
theorem passRules_swap (h : r.Independent s) (hp : (Entries.keys p.derived).Nodup) :
    ((passRules nullSafe facts p [r, s]).stopped = none ∧
        (passRules nullSafe facts p [s, r]).stopped = none ∧
        Alike (passRules nullSafe facts p [r, s]).progress
          (passRules nullSafe facts p [s, r]).progress) ∨
      ((passRules nullSafe facts p [r, s]).stopped ≠ none ∧
        (passRules nullSafe facts p [s, r]).stopped ≠ none) := by
  -- a rule that cannot go on here cannot go on behind the other rule either
  cases hr : r.effect nullSafe (p.context facts) with
  | error k =>
    exact .inr ⟨passRules_pair_of_error h.right (.inl hr), passRules_pair_of_error h.left (.inr hr)⟩
  | ok done =>
    cases hs : s.effect nullSafe (p.context facts) with
    | error k =>
      exact .inr ⟨passRules_pair_of_error h.right (.inr hs), passRules_pair_of_error h.left (.inl hs)⟩
    | ok other =>
      obtain ⟨hstopped, hprogress⟩ := passRules_pair_of_ok h.right hr hs
      obtain ⟨hstopped', hprogress'⟩ := passRules_pair_of_ok h.left hs hr
      refine .inl ⟨hstopped, hstopped', ?_⟩
      rw [hprogress, hprogress']
      exact alike_after_after h.output_ne hp done other

end

/-! ### The rules around them -/

section

variable {nullSafe : Bool} {facts : Bindings} {pre post : List Rule} {r s : Rule}

/-- Behind the same rules both orders are passed, or neither is. -/
theorem passRules_append_swap (h : r.Independent s) (pre : List Rule) :
    ((passRules nullSafe facts .start (pre ++ [r, s])).stopped = none ∧
        (passRules nullSafe facts .start (pre ++ [s, r])).stopped = none ∧
        Alike (passRules nullSafe facts .start (pre ++ [r, s])).progress
          (passRules nullSafe facts .start (pre ++ [s, r])).progress) ∨
      ((passRules nullSafe facts .start (pre ++ [r, s])).stopped ≠ none ∧
        (passRules nullSafe facts .start (pre ++ [s, r])).stopped ≠ none) := by
  cases hpre : (passRules nullSafe facts .start pre).stopped with
  | some k =>
    rw [passRules_append_of_stopped hpre, passRules_append_of_stopped hpre, hpre]
    exact .inr ⟨Option.some_ne_none k, Option.some_ne_none k⟩
  | none =>
    obtain ⟨hprogress, hstopped⟩ := passRules_append_of_passed hpre [r, s]
    obtain ⟨hprogress', hstopped'⟩ := passRules_append_of_passed hpre [s, r]
    rw [hprogress, hprogress', hstopped, hstopped']
    exact passRules_swap h (passRules_nodup List.nodup_nil)

/-- Between the same rules both orders are passed, or neither is. -/
theorem passRules_append_swap_append (h : r.Independent s) (pre post : List Rule) :
    ((passRules nullSafe facts .start (pre ++ [r, s] ++ post)).stopped = none ∧
        (passRules nullSafe facts .start (pre ++ [s, r] ++ post)).stopped = none ∧
        Alike (passRules nullSafe facts .start (pre ++ [r, s] ++ post)).progress
          (passRules nullSafe facts .start (pre ++ [s, r] ++ post)).progress) ∨
      ((passRules nullSafe facts .start (pre ++ [r, s] ++ post)).stopped ≠ none ∧
        (passRules nullSafe facts .start (pre ++ [s, r] ++ post)).stopped ≠ none) := by
  rcases passRules_append_swap h pre with ⟨hpassed, hpassed', halike⟩ | ⟨hnot, hnot'⟩
  · obtain ⟨hprogress, hstopped⟩ := passRules_append_of_passed hpassed post
    obtain ⟨hprogress', hstopped'⟩ := passRules_append_of_passed hpassed' post
    obtain ⟨hafter, hsame⟩ := Alike.lockstep.passRules halike
    rw [hprogress, hprogress', hstopped, hstopped', ← hsame]
    by_cases hpost : (passRules nullSafe facts
        (passRules nullSafe facts .start (pre ++ [r, s])).progress post).stopped = none
    · exact .inl ⟨hpost, hpost, hafter⟩
    · exact .inr ⟨hpost, hpost⟩
  · exact .inr ⟨fun hpassed => hnot (passed_of_append hpassed),
      fun hpassed => hnot' (passed_of_append hpassed)⟩

/-- A halt behind the rules that changed places needs that these were passed. -/
theorem passed_of_haltsAt_append {rs ss : List Rule} {p : Progress} {i : Nat} {k : Halt}
    (hat : HaltsAt nullSafe facts p (rs ++ ss) i k) (hi : rs.length ≤ i) :
    (passRules nullSafe facts p rs).stopped = none := by
  refine stopped_eq_none_iff.mpr fun j k' hj => ?_
  have hlt := hj.lt_length
  obtain ⟨rfl, -⟩ := (hj.append ss).unique hat
  omega

/-- The swap moves no halt at the rules around it. -/
theorem haltsAt_swap (h : r.Independent s) {i : Nat} {k : Halt}
    (hi : i < pre.length ∨ pre.length + 2 ≤ i)
    (hat : HaltsAt nullSafe facts .start (pre ++ [r, s] ++ post) i k) :
    HaltsAt nullSafe facts .start (pre ++ [s, r] ++ post) i k := by
  rcases hi with hi | hi
  · rw [List.append_assoc, haltsAt_append_iff_of_lt hi] at hat ⊢
    exact hat
  · have hlength : (pre ++ [r, s]).length ≤ i := by simpa using hi
    have hpassed := passed_of_haltsAt_append hat hlength
    rcases passRules_append_swap h pre with ⟨-, hpassed', halike⟩ | ⟨hnot, -⟩
    · rw [haltsAt_append_iff_of_passed hpassed] at hat
      rw [haltsAt_append_iff_of_passed hpassed']
      obtain ⟨j, hj, hat⟩ := hat
      refine ⟨j, hj.trans (by simp), ?_⟩
      exact Alike.lockstep.haltsAt halike hat
    · exact absurd hpassed hnot

end

namespace Executor

variable {nullSafe : Option Bool} {facts : List (Key × Value)} {known : Bindings}
  {pre post : List Rule} {r s : Rule}

/-- Runs that halt alike at the same rule have the same result. -/
theorem run_eq_of_haltsAt {x y : Executor} (hx : x.rules ≠ []) (hy : y.rules ≠ [])
    (hf : Accepted facts known) (hname : x.ruleset = y.ruleset) {i : Nat} {k : Halt}
    (hrule : x.rules[i]? = y.rules[i]?) (hat : x.HaltsAt nullSafe known i k)
    (hat' : y.HaltsAt nullSafe known i k) :
    (x.run facts nullSafe).1 = (y.run facts nullSafe).1 := by
  obtain ⟨r, hr, hstopped⟩ := HaltsAt.stopped hat
  obtain ⟨s, hs, hstopped'⟩ := HaltsAt.stopped hat'
  obtain rfl : r = s := by
    rw [hrule, hs] at hr
    exact (Option.some.inj hr).symm
  rw [run_eq hx hf, run_eq hy hf, outcome, outcome, passage, passage, hstopped, hstopped']
  cases k with
  | cause c => simp only [failure, hname]
  | crash c => rfl

theorem getElem?_swap (r s : Rule) (pre post : List Rule) {i : Nat}
    (hi : i < pre.length ∨ pre.length + 2 ≤ i) :
    (pre ++ [r, s] ++ post)[i]? = (pre ++ [s, r] ++ post)[i]? := by
  rcases hi with hi | hi
  · rw [List.append_assoc, List.append_assoc, List.getElem?_append_left hi,
      List.getElem?_append_left hi]
  · have hlength : ∀ t u : Rule, (pre ++ [t, u]).length ≤ i := fun t u => by simpa using hi
    rw [List.getElem?_append_right (hlength r s), List.getElem?_append_right (hlength s r)]
    simp

/-- Two independent neighbours change places. Then both runs report, the same outputs in some order and
the same count, or both end in an error. What fails before or behind the two fails there either way. -/
theorem run_swap (x : Executor) (nullSafe : Option Bool) (pre post : List Rule) (h : r.Independent s)
    (hf : Accepted facts known) :
    ((∃ one two, ((x.withRules (pre ++ [r, s] ++ post)).run facts nullSafe).1 = .ok one ∧
          ((x.withRules (pre ++ [s, r] ++ post)).run facts nullSafe).1 = .ok two ∧
          one.outputs.Perm two.outputs ∧
          (∀ name, Entries.get? one.outputs name = Entries.get? two.outputs name) ∧
          one.executed = two.executed) ∨
        ∃ e e', ((x.withRules (pre ++ [r, s] ++ post)).run facts nullSafe).1 = .error e ∧
          ((x.withRules (pre ++ [s, r] ++ post)).run facts nullSafe).1 = .error e') ∧
      ∀ i k, (i < pre.length ∨ pre.length + 2 ≤ i) →
        ((x.withRules (pre ++ [r, s] ++ post)).HaltsAt nullSafe known i k ↔
          (x.withRules (pre ++ [s, r] ++ post)).HaltsAt nullSafe known i k) ∧
        ((x.withRules (pre ++ [r, s] ++ post)).HaltsAt nullSafe known i k →
          ((x.withRules (pre ++ [r, s] ++ post)).run facts nullSafe).1 =
            ((x.withRules (pre ++ [s, r] ++ post)).run facts nullSafe).1) := by
  have hne : ∀ t u : Rule, (x.withRules (pre ++ [t, u] ++ post)).rules ≠ [] := by
    intro t u
    simp [withRules]
  refine ⟨?_, fun i k hi => ⟨⟨haltsAt_swap h hi, haltsAt_swap h.symm hi⟩, fun hat => ?_⟩⟩
  · have hor : ((x.withRules (pre ++ [r, s] ++ post)).passage nullSafe known).stopped = none ∧ _ ∨ _ :=
      passRules_append_swap_append h pre post
    rcases hor with ⟨hpassed, hpassed', halike⟩ | ⟨hnot, hnot'⟩
    · exact .inl ⟨_, _, (run_ok_iff (hne r s) hf).mpr ⟨hpassed, rfl⟩,
        (run_ok_iff (hne s r) hf).mpr ⟨hpassed', rfl⟩, halike.perm, halike.found, halike.executed⟩
    · obtain ⟨e, he⟩ := run_error_of_stopped (hne r s) hf hnot
      obtain ⟨e', he'⟩ := run_error_of_stopped (hne s r) hf hnot'
      exact .inr ⟨e, e', he, he'⟩
  · exact run_eq_of_haltsAt (hne r s) (hne s r) hf rfl (getElem?_swap r s pre post hi) hat
      (haltsAt_swap h hi hat)

def doubled : Rule :=
  ⟨"double", "", "price > 1", "price * 2", "twice", by decide, by decide, by decide⟩

def tripled : Rule :=
  ⟨"triple", "", "price < 9", "price * 3", "thrice", by decide, by decide, by decide⟩

def summed : Rule :=
  ⟨"sum", "", "twice > 0", "twice + thrice", "sum", by decide, by decide, by decide⟩

def cheap : List (Key × Value) := [(.text "price", .number (.int 5))]

theorem run_swap_cheap :
    ∃ one two, ((withRules ⟨[], "prices", true⟩ [doubled, tripled, summed]).run cheap none).1 = .ok one ∧
      ((withRules ⟨[], "prices", true⟩ [tripled, doubled, summed]).run cheap none).1 = .ok two ∧
      one.outputs.Perm two.outputs ∧ one.executed = two.executed := by
  have h : doubled.Independent tripled := by
    refine ⟨?_, ?_, ?_⟩
    · decide
    · decide +kernel
    · decide +kernel
  have hf : Accepted cheap (.ofEntries cheap) := ⟨cheap, rfl, rfl⟩
  have hrun : ((withRules ⟨[], "prices", true⟩ ([] ++ [doubled, tripled] ++ [summed])).run
      cheap none).1.isOk = true := by
    decide +kernel
  obtain ⟨hresults, -⟩ := run_swap ⟨[], "prices", true⟩ none [] [summed] h hf
  rcases hresults with ⟨one, two, hone, htwo, hperm, -, hexecuted⟩ | ⟨e, e', he, -⟩
  · exact ⟨one, two, hone, htwo, hperm, hexecuted⟩
  · rw [he] at hrun
    cases hrun

end Executor

end Rulebook
