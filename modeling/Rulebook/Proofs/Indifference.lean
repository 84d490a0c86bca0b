import Rulebook.Proofs.Passage
import Rulebook.Proofs.Roots

set_option autoImplicit false

/-!
Facts that no rule reads. Facts that hold the same values under the names from which the paths of the
rules start give the same run, in its result and in all that is logged; a missing fact counts as null.
-/

namespace Rulebook

/-! ### Facts under names -/

/-- The fact under a name; a missing one is null. -/
def factUnder (facts : List (Key × Value)) (name : String) : Value :=
  (facts.lookup (.text name)).getD .null

/-- A name finds the entry under the text that it is. -/
theorem get?_ofEntries (es : List (Key × Value)) (name : String) :
    Entries.get? (Bindings.ofEntries es) name = es.lookup (.text name) := by
  induction es with
  | nil => rfl
  | cons e es ih =>
    obtain ⟨k, v⟩ := e
    simp only [Bindings.ofEntries] at ih
    by_cases hk : (Key.text name == k) = true
    · rw [Value.eq_text_of_beq hk]
      simp [Bindings.ofEntries, Entries.get?_cons, List.lookup_cons]
    · rw [List.lookup_cons]
      cases k with
      | text s =>
        cases hs : s.toString? with
        | none => simp [Bindings.ofEntries, hs, ih, hk]
        | some other =>
          have hne : other ≠ name := by
            rintro rfl
            rw [Text.eq_ofString hs] at hk
            simp at hk
          simp [Bindings.ofEntries, hs, ih, Entries.get?_cons, hne, hk]
      | _ => simp [Bindings.ofEntries, ih, hk]

section

variable {facts facts' : List (Key × Value)} {known known' : Bindings} {name : String}

/-- What a run knows under a name is the fact under it in its normal form. -/
theorem Accepted.normalize_factUnder (h : Accepted facts known) (name : String) :
    (factUnder facts name).normalize = .ok ((Entries.get? known name).getD .null) := by
  obtain ⟨closed, hclosed, rfl⟩ := h
  rw [get?_ofEntries]
  exact Value.normalize_lookup hclosed name

theorem Accepted.get?_eq (hf : Accepted facts known) (hg : Accepted facts' known')
    (h : factUnder facts name = factUnder facts' name) :
    (Entries.get? known name).getD .null = (Entries.get? known' name).getD .null := by
  have hknown := hf.normalize_factUnder name
  rw [h, hg.normalize_factUnder name] at hknown
  exact (Except.ok.inj hknown).symm

/-- Facts that agree under some names agree under them whatever was derived over both. -/
theorem Accepted.agreeOn (hf : Accepted facts known) (hg : Accepted facts' known')
    {names : List String} (h : ∀ name ∈ names, factUnder facts name = factUnder facts' name)
    (derived : Bindings) : Context.AgreeOn names ⟨known, derived⟩ ⟨known', derived⟩ := by
  intro name hname
  rw [Context.root, Context.root, Context.find?, Context.find?]
  cases Entries.get? derived name with
  | some v => rfl
  | none => exact hf.get?_eq hg (h name hname)

end

/-! ### The same rules over both facts -/

section

variable {nullSafe : Bool} {c d : Context} {r : Rule}

theorem Rule.events_congr (h : c.AgreeOn r.roots d) (hderived : c.derived = d.derived) :
    r.events nullSafe c = r.events nullSafe d := by
  have htransformation : r.transformationEvents nullSafe c = r.transformationEvents nullSafe d := by
    rw [transformationEvents, transformationEvents, attemptTransformation_congr h]
  rw [events, events, attemptCondition_congr h, htransformation, hderived]

end

/-- Facts that agree on what each rule reads, whatever was derived before. -/
def FactsAgree (rs : List Rule) (known known' : Bindings) : Prop :=
  ∀ r ∈ rs, ∀ derived, Context.AgreeOn r.roots ⟨known, derived⟩ ⟨known', derived⟩

section

variable {known known' : Bindings} {rs : List Rule}

theorem passRules_congr (nullSafe : Bool) (h : FactsAgree rs known known') (p : Progress) :
    passRules nullSafe known p rs = passRules nullSafe known' p rs := by
  induction rs generalizing p with
  | nil => rfl
  | cons r rs ih =>
    obtain ⟨hhead, htail⟩ := List.forall_mem_cons.mp h
    have hagree : Context.AgreeOn r.roots (p.context known) (p.context known') := hhead p.derived
    have heffect : r.effect nullSafe (p.context known) = r.effect nullSafe (p.context known') :=
      Rule.effect_congr hagree
    have hevents : r.events nullSafe (p.context known) = r.events nullSafe (p.context known') :=
      Rule.events_congr hagree rfl
    rw [passRules, passRules, heffect, hevents]
    cases r.effect nullSafe (p.context known') with
    | error halt => rfl
    | ok done => simp only [ih htail]

theorem FactsAgree.lockstep (nullSafe : Bool) (h : FactsAgree rs known known') :
    Lockstep nullSafe known known' Eq rs where
  effect r hr p q hpq := by
    subst hpq
    exact Rule.effect_congr (h r hr p.derived)
  fire _ _ _ _ _ hpq := by rw [hpq]

end

/-- Over other facts that let the rules pass alike, a run goes the same way. -/
theorem Run.execute_withFacts (run : Run) (facts : Bindings)
    (h : passRules run.nullSafe run.facts run.progress run.rules =
      passRules run.nullSafe facts run.progress run.rules) :
    { run with facts }.execute =
      (run.execute.1, { run.execute.2.1 with facts }, run.execute.2.2) := by
  by_cases hstatus : run.status = .pending
  · simp only [execute, hstatus, if_true, ← h]
    cases (passRules run.nullSafe run.facts run.progress run.rules).stopped with
    | none => rfl
    | some k =>
      obtain ⟨r, halt⟩ := k
      cases halt <;> rfl
  · simp only [execute, hstatus, if_false]

namespace Executor

variable {facts facts' : List (Key × Value)} {known known' : Bindings}

theorem run_eq_of_factsAgree (x : Executor) (nullSafe : Option Bool) (hf : Accepted facts known)
    (hg : Accepted facts' known') (h : FactsAgree x.rules known known') :
    ∃ run run', x.start facts nullSafe = .ok run ∧ x.start facts' nullSafe = .ok run' ∧
      run'.execute = (run.execute.1, { run.execute.2.1 with facts := known' }, run.execute.2.2) ∧
      x.run facts nullSafe = x.run facts' nullSafe := by
  have hstart := start_eq (x := x) hf nullSafe
  have hstart' := start_eq (x := x) hg nullSafe
  have hpassed := passRules_congr (nullSafe.getD x.nullSafe) h .start
  have hexecute := Run.execute_withFacts
    ⟨"", x.rules, x.ruleset, nullSafe.getD x.nullSafe, known, .start, .pending⟩ known' hpassed
  refine ⟨_, _, hstart, hstart', hexecute, ?_⟩
  rw [start] at hstart hstart'
  rw [run, run, hstart, hstart']
  by_cases hempty : x.rules.isEmpty = true
  · rw [if_pos hempty, if_pos hempty]
  · rw [if_neg hempty, if_neg hempty]
    simp only [hexecute]

/-- Two maps of facts that have the same under each name from which a path of a rule starts give the same
report with the same log, or the same failure of the same rule. -/
theorem run_indifferent (x : Executor) (nullSafe : Option Bool) (hf : Accepted facts known)
    (hg : Accepted facts' known')
    (h : ∀ r ∈ x.rules, ∀ name ∈ r.roots, factUnder facts name = factUnder facts' name) :
    x.run facts nullSafe = x.run facts' nullSafe ∧
      (∃ run run', x.start facts nullSafe = .ok run ∧ x.start facts' nullSafe = .ok run' ∧
        run.execute.1 = run'.execute.1 ∧ run.execute.2.1.status = run'.execute.2.1.status ∧
          run.execute.2.1.progress = run'.execute.2.1.progress) ∧
      ∀ i halt, x.HaltsAt nullSafe known i halt ↔ x.HaltsAt nullSafe known' i halt := by
  have hagree : FactsAgree x.rules known known' := fun r hr => hf.agreeOn hg (h r hr)
  obtain ⟨run, run', hstart, hstart', hexecute, hsame⟩ :=
    x.run_eq_of_factsAgree nullSafe hf hg hagree
  refine ⟨hsame, ⟨run, run', hstart, hstart', ?_⟩, fun i halt => ?_⟩
  · rw [hexecute]
    exact ⟨rfl, rfl, rfl⟩
  · exact (hagree.lockstep (nullSafe.getD x.nullSafe)).haltsAt_iff rfl

/-- A ticket is free below some age, whoever it is for. -/
def ticket : Executor where
  rules :=
    [⟨"free", "", "age < 6 AND pass == null", "0", "price", by decide, by decide, by decide⟩,
      ⟨"paid", "", "price == null", "age.years", "price", by decide, by decide, by decide⟩]
  ruleset := "ticket"
  nullSafe := true

def ofChild : List (Key × Value) := [(.text "age", .int 4), (.text "pass", .null)]

def ofNamedChild : List (Key × Value) := [(.text "name", .text "Ann"), (.text "age", .int 4)]

theorem run_indifferent_ofChild :
    ticket.run ofChild none = ticket.run ofNamedChild none ∧
      (ticket.run ofNamedChild none).1.isOk = true := by
  have hf : Accepted ofChild (.ofEntries ofChild) := ⟨ofChild, rfl, rfl⟩
  have hg : Accepted ofNamedChild (.ofEntries ofNamedChild) := ⟨ofNamedChild, rfl, rfl⟩
  have hroots : ∀ r ∈ ticket.rules, ∀ name ∈ r.roots, name ∈ ["age", "pass", "price"] := by
    decide +kernel
  have hsame : ∀ r ∈ ticket.rules, ∀ name ∈ r.roots,
      factUnder ofChild name = factUnder ofNamedChild name := by
    intro r hr name hname
    have hmem := hroots r hr name hname
    simp only [List.mem_cons, List.not_mem_nil, or_false] at hmem
    rcases hmem with rfl | rfl | rfl <;> rfl
  exact ⟨(run_indifferent ticket none hf hg hsame).1, by decide +kernel⟩

end Executor

end Rulebook
