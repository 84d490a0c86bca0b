import Rulebook.Proofs.Evaluation
import Rulebook.Proofs.Entries
import Rulebook.Proofs.Passage
import Rulebook.Proofs.Rules

set_option autoImplicit false

/-!
What is known of evaluation, carried through runs: if the facts and the literals of the rules have a
property that the operations keep, then so has every output. Runs stay within the closed values: over facts
that are accepted every output is a closed value, and the only crashes are those of the operations on
numbers. No name has two outputs.
-/

namespace Rulebook

namespace Bindings

/-- All values have a property. -/
def All (P : Value → Prop) (b : Bindings) : Prop := ∀ e ∈ b, P e.2

/-- All values are closed. -/
def Closed (b : Bindings) : Prop := ∀ e ∈ b, e.2.Closed

section

variable {P : Value → Prop} {b : Bindings}

theorem all_nil : All P [] := by
  intro e he
  cases he

theorem All.put (hb : b.All P) (name : String) {v : Value} (hv : P v) :
    All P (Entries.put b name v) := by
  intro e he
  rcases Entries.mem_put he with rfl | he
  · exact hv
  · exact hb e he

theorem All.get? (hb : b.All P) {name : String} {v : Value} (h : Entries.get? b name = some v) : P v :=
  hb _ (Entries.mem_of_get? h)

theorem all_ofEntries {es : List (Key × Value)} (h : ∀ e ∈ es, P e.2) : (ofEntries es).All P := by
  intro e he
  obtain ⟨⟨k, v⟩, hmem, hkv⟩ := List.mem_filterMap.mp he
  cases k with
  | text s =>
    obtain ⟨name, -, rfl⟩ := Option.map_eq_some_iff.mp hkv
    exact h _ hmem
  | _ => cases hkv

end

theorem closed_nil : Closed [] := all_nil

end Bindings

theorem Accepted.closed {facts : List (Key × Value)} {known : Bindings} (h : Accepted facts known) :
    known.Closed := by
  obtain ⟨closed, hclosed, rfl⟩ := h
  have hentries := Value.closedEntries_iff.mp (Value.closedEntries_of_normalizeEntries hclosed)
  exact Bindings.all_ofEntries fun e he => (hentries e he).2

theorem Context.all_root {P : Value → Prop} (hnull : P .null) {c : Context} (hfacts : c.facts.All P)
    (hderived : c.derived.All P) (name : String) : P (c.root name) := by
  rw [root, find?]
  cases hd : Entries.get? c.derived name with
  | some v => exact hderived.get? hd
  | none =>
    cases hf : Entries.get? c.facts name with
    | some v => exact hfacts.get? hf
    | none => exact hnull

section

variable {α : Type} {P : α → Prop} {K : Crash → Prop} {nullSafe : Bool} {fallback : α} {text : String}
  {run : Expr → Outcome α}

theorem Yields.meets {a : α} (h : Yields nullSafe fallback text run a) (hfallback : P fallback)
    (hrun : ∀ e, parse text = .ok e → (run e).Meets P K) : P a := by
  cases h with
  | value hp hr =>
    have := hrun _ hp
    rwa [hr] at this
  | forgiven => exact hfallback

theorem Breaks.meets {c : Crash} (h : Breaks nullSafe text run (.crash c)) (hdigits : K .digits)
    (hrun : ∀ e, parse text = .ok e → (run e).Meets P K) : K c := by
  cases h with
  | digits => exact hdigits
  | crash hp hr =>
    have := hrun _ hp
    rwa [hr] at this

end

/-- Every literal in the texts of a rule has a property. -/
def Rule.LiteralsIn (P : Value → Prop) (r : Rule) : Prop :=
  ∀ text ∈ [r.condition, r.transformation], ∀ e, parse text = .ok e → e.LiteralsIn P

theorem Rule.literalsIn_closed (r : Rule) : r.LiteralsIn Value.Closed :=
  fun _ _ _ he => Expr.closed_of_parse he

/-! ### What a law says of runs -/

section

variable {P : Value → Prop} {K : Crash → Prop} (law : Value.Law P K) {nullSafe : Bool}

include law

section

variable {c : Context} {r : Rule} (hr : r.LiteralsIn P) (hfacts : c.facts.All P)
  (hderived : c.derived.All P)

include hr hfacts hderived

theorem Value.Law.evalText {text : String} (ht : text ∈ [r.condition, r.transformation]) (e : Expr)
    (he : parse text = .ok e) : (Rulebook.eval .builtin c e).Meets P K :=
  law.eval (Context.all_root law.null hfacts hderived) (hr text ht e he)

/-- What a rule writes has the property. -/
theorem Value.Law.written {v : Value} (h : r.effect nullSafe c = .ok (some v)) : P v :=
  (Rule.effect_eq_some_iff.mp h).2.meets law.null (law.evalText hr hfacts hderived (by simp))

/-- What a rule crashes with is a crash of the law. -/
theorem Value.Law.crash {k : Crash} (h : r.effect nullSafe c = .error (.crash k)) : K k := by
  cases Rule.effect_eq_error_iff.mp h with
  | condition hb =>
    have hcondition : ∀ e, parse r.condition = .ok e →
        (evalCondition .builtin c e).Meets (fun _ => True) K := fun e he =>
      (law.evalText hr hfacts hderived (by simp) e he).bind fun v hv => law.asCondition hv
    exact hb.meets law.digits hcondition
  | transformation _ hb => exact hb.meets law.digits (law.evalText hr hfacts hderived (by simp))

end

variable {facts : Bindings} {p : Progress} {rs : List Rule}

theorem Value.Law.after {r : Rule} {done : Option Value} (hr : r.LiteralsIn P) (hfacts : facts.All P)
    (hp : p.derived.All P) (he : r.effect nullSafe (p.context facts) = .ok done) :
    (p.after r done).derived.All P := by
  cases done with
  | none => exact hp
  | some v => exact hp.put r.output (law.written hr hfacts hp he)

theorem Value.Law.passRules (hrs : ∀ r ∈ rs, r.LiteralsIn P) (hfacts : facts.All P)
    (hp : p.derived.All P) : (Rulebook.passRules nullSafe facts p rs).progress.derived.All P := by
  induction rs generalizing p with
  | nil => exact hp
  | cons r rs ih =>
    obtain ⟨hr, hrs⟩ := List.forall_mem_cons.mp hrs
    cases he : r.effect nullSafe (p.context facts) with
    | error k =>
      rw [passRules_of_error he]
      exact hp
    | ok done =>
      rw [passRules_of_ok he]
      exact ih hrs (law.after hr hfacts hp he)

theorem Value.Law.haltsAt (hrs : ∀ r ∈ rs, r.LiteralsIn P) (hfacts : facts.All P)
    (hp : p.derived.All P) {i : Nat} {c : Crash} (hat : HaltsAt nullSafe facts p rs i (.crash c)) :
    K c := by
  generalize hk : Halt.crash c = k at hat
  induction hat with
  | here he =>
    subst hk
    exact law.crash (hrs _ List.mem_cons_self) hfacts hp he
  | later he _ ih =>
    obtain ⟨hr, hrs⟩ := List.forall_mem_cons.mp hrs
    exact ih hrs (law.after hr hfacts hp he) hk

end

section

variable {nullSafe : Bool} {facts : Bindings} {p : Progress} {rs : List Rule}

theorem passRules_closed (hfacts : facts.Closed) (hp : p.derived.Closed) :
    (passRules nullSafe facts p rs).progress.derived.Closed :=
  Value.closed_law.passRules (fun r _ => r.literalsIn_closed) hfacts hp

theorem passRules_nodup (hp : (Entries.keys p.derived).Nodup) :
    (Entries.keys (passRules nullSafe facts p rs).progress.derived).Nodup := by
  refine passRules_invariant (I := fun p => (Entries.keys p.derived).Nodup) ?_ hp
  intro p r v hnodup _
  exact Entries.nodup_keys_put hnodup r.output v

theorem HaltsAt.isNumeric {i : Nat} {c : Crash} (hfacts : facts.Closed) (hp : p.derived.Closed)
    (hat : HaltsAt nullSafe facts p rs i (.crash c)) : c.IsNumeric :=
  Value.closed_law.haltsAt (fun r _ => r.literalsIn_closed) hfacts hp hat

end

end Rulebook
