import Rulebook.Proofs.Endings
import Rulebook.Proofs.Pipeline

set_option autoImplicit false

/-!
Rules and facts without binary64 numbers. Operations on integers have a result or are divisions by zero, so
that evaluation crashes only for an integer of too many digits, which has no text. Otherwise a run is completed
or a rule fails, and its outputs are without binary64 numbers as well: they can be facts of the next run.
-/

namespace Rulebook

namespace Value

mutual

/-- No binary64 number stands in the value, at any depth. -/
def FloatFree : Value → Prop
  | number (.float _) => False
  | list items | tuple items => FloatFreeItems items
  | map entries => FloatFreeEntries entries
  | _ => True

def FloatFreeItems : List Value → Prop
  | [] => True
  | v :: vs => v.FloatFree ∧ FloatFreeItems vs

def FloatFreeEntries : List (Key × Value) → Prop
  | [] => True
  | (_, v) :: es => v.FloatFree ∧ FloatFreeEntries es

end

theorem floatFreeItems_iff {items : List Value} : FloatFreeItems items ↔ ∀ v ∈ items, v.FloatFree := by
  induction items with
  | nil => simp [FloatFreeItems]
  | cons v vs ih => simp [FloatFreeItems, ih]

theorem floatFreeEntries_iff {es : List (Key × Value)} :
    FloatFreeEntries es ↔ ∀ e ∈ es, e.2.FloatFree := by
  induction es with
  | nil => simp [FloatFreeEntries]
  | cons e es ih =>
    obtain ⟨k, v⟩ := e
    simp [FloatFreeEntries, ih]

mutual

theorem floatFree_of_normalize : ∀ {v w : Value}, v.FloatFree → v.normalize = .ok w → w.FloatFree
  | .null, w, hv, h | .bool _, w, hv, h | .number _, w, hv, h | .text _, w, hv, h => by
    simp only [normalize, Except.ok.injEq] at h
    rwa [← h]
  | .list items, w, hv, h | .tuple items, w, hv, h => by
    rw [FloatFree] at hv
    rw [normalize] at h
    obtain ⟨vs, hvs, hw⟩ := bind_eq_ok.mp h
    cases hw
    rw [FloatFree]
    exact floatFreeItems_of_normalizeItems hv hvs
  | .map es, w, hv, h => by
    rw [FloatFree] at hv
    rw [normalize] at h
    obtain ⟨fs, hfs, hw⟩ := bind_eq_ok.mp h
    cases hw
    rw [FloatFree]
    exact floatFreeEntries_of_normalizeEntries hv hfs
  | .foreign _, w, _, h => by simp [normalize] at h

theorem floatFreeItems_of_normalizeItems :
    ∀ {items vs : List Value}, FloatFreeItems items → normalizeItems items = .ok vs → FloatFreeItems vs
  | [], vs, _, h => by
    simp only [normalizeItems, Except.ok.injEq] at h
    subst h
    simp [FloatFreeItems]
  | v :: items, vs, hv, h => by
    rw [FloatFreeItems] at hv
    rw [normalizeItems] at h
    obtain ⟨w, hw, h⟩ := bind_eq_ok.mp h
    obtain ⟨ws, hws, h⟩ := bind_eq_ok.mp h
    cases h
    rw [FloatFreeItems]
    exact ⟨floatFree_of_normalize hv.1 hw, floatFreeItems_of_normalizeItems hv.2 hws⟩

theorem floatFreeEntries_of_normalizeEntries :
    ∀ {es fs : List (Key × Value)}, FloatFreeEntries es → normalizeEntries es = .ok fs →
      FloatFreeEntries fs
  | [], fs, _, h => by
    simp only [normalizeEntries, Except.ok.injEq] at h
    subst h
    simp [FloatFreeEntries]
  | (.text s, v) :: es, fs, hv, h => by
    rw [FloatFreeEntries] at hv
    rw [normalizeEntries] at h
    obtain ⟨w, hw, h⟩ := bind_eq_ok.mp h
    obtain ⟨ws, hws, h⟩ := bind_eq_ok.mp h
    cases h
    rw [FloatFreeEntries]
    exact ⟨floatFree_of_normalize hv.1 hw, floatFreeEntries_of_normalizeEntries hv.2 hws⟩
  | (.null, _) :: _, _, _, h | (.bool _, _) :: _, _, _, h | (.number _, _) :: _, _, _, h
  | (.nan _, _) :: _, _, _, h | (.tuple _, _) :: _, _, _, h | (.foreign _, _) :: _, _, _, h => by
    simp [normalizeEntries] at h

end

theorem floatFree_step {v : Value} (h : v.FloatFree) (s : Segment) : (v.step s).FloatFree := by
  have hnull : Value.null.FloatFree := by simp [FloatFree]
  have hitem : ∀ items n, FloatFreeItems items → (item items n).FloatFree := by
    intro items n hitems
    rw [item]
    split
    · exact hnull
    · cases hi : items[n.toNat]? with
      | none => exact hnull
      | some w => exact floatFreeItems_iff.mp hitems w (List.mem_of_getElem? hi)
  cases v with
  | map es =>
    rw [FloatFree, floatFreeEntries_iff] at h
    cases s with
    | key name =>
      rw [step]
      cases hl : es.lookup (.text name) with
      | none => exact hnull
      | some w => exact h _ (mem_of_lookup hl)
    | _ => simp [step, FloatFree]
  | list items | tuple items =>
    rw [FloatFree] at h
    cases s with
    | index n =>
      rw [step]
      exact hitem items n h
    | _ => simp [step, FloatFree]
  | _ => simp [step, FloatFree]

/-- Closed values without binary64 numbers. -/
def Exact (v : Value) : Prop := v.Closed ∧ v.FloatFree

theorem exact_int (n : Int) : Exact (.number (.int n)) := by simp [Exact, Closed, FloatFree]

theorem Exact.exists_int {n : Number} (h : Exact (.number n)) : ∃ m, n = .int m := by
  cases n with
  | int m => exact ⟨m, rfl⟩
  | float x => simp [Exact, FloatFree] at h

theorem Exact.normalize {v : Value} (h : v.Exact) : v.normalize = .ok v := normalize_of_closed h.1

/-- Exact values are kept by every operation, and operations on them crash only for too many digits. -/
theorem exact_law : Law Exact (· = .digits) where
  closed h := h.1
  null := by simp [Exact, Closed, FloatFree]
  bool _ := by simp [Exact, Closed, FloatFree]
  text _ := by simp [Exact, Closed, FloatFree]
  int n := exact_int n
  step s h := ⟨closed_step h.1 s, floatFree_step h.2 s⟩
  neg h := by
    obtain ⟨m, rfl⟩ := h.exists_int
    exact exact_int (-m)
  arith op arith a b ha hb := by
    obtain ⟨m, rfl⟩ := ha.exists_int
    obtain ⟨n, rfl⟩ := hb.exists_int
    rw [Number.arith]
    split
    · exact trivial
    · exact exact_int _
  digits := rfl

end Value

/-! ### Rules -/

def TokenKind.isFloat : TokenKind → Bool
  | float _ => Bool.true
  | _ => Bool.false

/-- No token of the text is a number with a fraction or an exponent. -/
def FloatFreeText (text : String) : Prop :=
  ∀ ts, Token.scan text = .ok ts → ∀ t ∈ ts, t.kind.isFloat = false

instance (text : String) : Decidable (FloatFreeText text) :=
  decidable_of_iff ((Token.scan text).toOption.all (·.all (!·.kind.isFloat)) = true) <| by
    cases h : Token.scan text with
    | error fault => simp [FloatFreeText, h, Except.toOption]
    | ok ts => simp [FloatFreeText, h, Except.toOption]

def Rule.FloatFree (r : Rule) : Prop := FloatFreeText r.condition ∧ FloatFreeText r.transformation

instance (r : Rule) : Decidable r.FloatFree := inferInstanceAs (Decidable (_ ∧ _))

theorem Expr.exact_of_parse {text : String} (ht : FloatFreeText text) {e : Expr}
    (h : parse text = .ok e) : e.LiteralsIn Value.Exact := by
  have hliteral : ∀ {t : Token} {v}, t.kind.isFloat = false → Parse.literal? t.kind = some v →
      v.Exact := by
    rintro ⟨kind, text, position⟩ v hkind hv
    cases kind with
    | float x => cases hkind
    | _ =>
      simp only [Parse.literal?, Option.some.injEq, reduceCtorEq] at hv <;>
        simp [← hv, Value.Exact, Value.Closed, Value.FloatFree]
  exact (Parse.law_literalsIn hliteral fun _ => Value.exact_law.neg).parse ht h

theorem Rule.FloatFree.literalsIn {r : Rule} (hr : r.FloatFree) : r.LiteralsIn Value.Exact := by
  intro text htext e he
  rcases List.mem_pair.mp htext with rfl | rfl
  · exact Expr.exact_of_parse hr.1 he
  · exact Expr.exact_of_parse hr.2 he

/-! ### Facts -/

theorem Accepted.exact {facts : List (Key × Value)} {known : Bindings} (h : Accepted facts known)
    (hfacts : Value.FloatFreeEntries facts) : known.All Value.Exact := by
  obtain ⟨closed, hclosed, rfl⟩ := h
  have hentries := Value.closedEntries_iff.mp (Value.closedEntries_of_normalizeEntries hclosed)
  have hfree := Value.floatFreeEntries_iff.mp (Value.floatFreeEntries_of_normalizeEntries hfacts hclosed)
  exact Bindings.all_ofEntries fun e he => ⟨(hentries e he).2, hfree e he⟩

theorem floatFree_putFact {es : List (Key × Value)} (hes : Value.FloatFreeEntries es) (name : String)
    {v : Value} (hv : v.FloatFree) : Value.FloatFreeEntries (putFact es name v) := by
  induction es with
  | nil => simpa [putFact, Value.FloatFreeEntries] using hv
  | cons e es ih =>
    obtain ⟨k, w⟩ := e
    rw [Value.FloatFreeEntries] at hes
    rw [putFact]
    split
    · rw [Value.FloatFreeEntries]
      exact ⟨hv, hes.2⟩
    · rw [Value.FloatFreeEntries]
      exact ⟨hes.1, ih hes.2⟩

theorem floatFree_overrideFacts {facts : List (Key × Value)} (hfacts : Value.FloatFreeEntries facts)
    {outputs : Bindings} (ho : outputs.All Value.Exact) :
    Value.FloatFreeEntries (overrideFacts facts outputs) := by
  induction outputs generalizing facts with
  | nil => exact hfacts
  | cons o outputs ih =>
    obtain ⟨hv, hrest⟩ := List.forall_mem_cons.mp ho
    exact ih (floatFree_putFact hfacts o.1 hv.2) hrest

/-! ### Runs -/

namespace Executor

section

variable {x : Executor} {nullSafe : Option Bool} {facts : List (Key × Value)} {known : Bindings}

theorem passage_exact (hrules : ∀ r ∈ x.rules, r.FloatFree) (hknown : known.All Value.Exact) :
    (x.passage nullSafe known).progress.derived.All Value.Exact :=
  Value.exact_law.passRules (fun r hr => (hrules r hr).literalsIn) hknown Bindings.all_nil

theorem eq_digits_of_crash (hx : x.rules ≠ []) (hf : Accepted facts known)
    (hrules : ∀ r ∈ x.rules, r.FloatFree) (hknown : known.All Value.Exact) {k : Crash}
    (hcrash : (x.run facts nullSafe).1 = .error (.run (.crash k))) : k = .digits := by
  obtain ⟨i, hat⟩ := (run_crash_iff hx hf).mp hcrash
  exact Value.exact_law.haltsAt (fun r hr => (hrules r hr).literalsIn) hknown Bindings.all_nil hat

/-- A run is completed, it fails with the error of one of its rules, or it crashes and is left running. -/
theorem ends_of_start (hx : x.rules ≠ []) (hf : Accepted facts known) {run : Run}
    (hstart : x.start facts nullSafe = .ok run) :
    (∃ report, (x.run facts nullSafe).1 = .ok report ∧ run.execute.2.1.status = .completed) ∨
      (∃ r ∈ x.rules, ∃ c, (x.run facts nullSafe).1 = .error (.run (.rule (x.failure r c))) ∧
        run.execute.2.1.status = .failed) ∨
      ∃ k, (x.run facts nullSafe).1 = .error (.run (.crash k)) ∧ run.execute.2.1.status = .running := by
  have hpending : run.status = .pending := by
    rw [start_eq hf] at hstart
    cases hstart
    rfl
  have hrun := run_of_start hx hstart
  have hends := Run.ends hpending
  cases hresult : run.execute.1 with
  | ok report =>
    rw [hresult] at hrun hends
    generalize run.execute.2.1.status = status at hends ⊢
    cases hends
    exact .inl ⟨report, hrun, rfl⟩
  | error e =>
    rw [hresult] at hrun hends
    generalize run.execute.2.1.status = status at hends ⊢
    cases hends with
    | failed e =>
      obtain ⟨i, r, c, hi, -, rfl⟩ := (run_rule_iff hx hf).mp hrun
      exact .inr (.inl ⟨r, List.mem_of_getElem? hi, c, hrun, rfl⟩)
    | stalled k => exact .inr (.inr ⟨k, hrun, rfl⟩)

/-- A run over rules and facts without binary64 numbers ends as completed, or as failed with the error of
one of its rules, unless a rule asks for the text of an integer of too many digits, or holds one: then the run
is left running. All that it derives is closed and without binary64 numbers, and can be facts again. -/
theorem run_floatFree (x : Executor) (nullSafe : Option Bool) (hx : x.rules ≠ [])
    (hrules : ∀ r ∈ x.rules, r.FloatFree) (hf : Accepted facts known)
    (hfacts : Value.FloatFreeEntries facts) :
    ∃ run, x.start facts nullSafe = .ok run ∧
      ((∃ report, (x.run facts nullSafe).1 = .ok report ∧ run.execute.2.1.status = .completed) ∨
        (∃ r ∈ x.rules, ∃ c, (x.run facts nullSafe).1 = .error (.run (.rule (x.failure r c))) ∧
          run.execute.2.1.status = .failed) ∨
        (x.run facts nullSafe).1 = .error (.run (.crash .digits)) ∧ run.execute.2.1.status = .running ∧
          ∃ before r after fired, x.rules = before ++ r :: after ∧
            Trail (nullSafe.getD x.nullSafe) known before fired ∧
            r.Stalls (nullSafe.getD x.nullSafe) ⟨known, written fired⟩ .digits) ∧
      (∀ o ∈ run.execute.2.1.progress.derived, o.2.Exact ∧ o.2.normalize = .ok o.2) ∧
      ∀ report, (x.run facts nullSafe).1 = .ok report →
        (∀ o ∈ report.outputs, o.2.Exact ∧ o.2.normalize = .ok o.2) ∧
          Accepted (overrideFacts facts report.outputs) (Entries.override known report.outputs) ∧
          Value.FloatFreeEntries (overrideFacts facts report.outputs) := by
  have hexact := hf.exact hfacts
  have hderived : (x.passage nullSafe known).progress.derived.All Value.Exact :=
    passage_exact hrules hexact
  have hstart := start_eq (x := x) hf nullSafe
  refine ⟨_, hstart, ?_, ?_, ?_⟩
  · refine (ends_of_start hx hf hstart).imp_right (Or.imp_right ?_)
    rintro ⟨k, hcrash, hstatus⟩
    obtain rfl := eq_digits_of_crash hx hf hrules hexact hcrash
    exact ⟨hcrash, hstatus, (crash_iff_stalls hx hf).mp hcrash⟩
  · intro o ho
    rw [Run.progress_execute rfl] at ho
    exact ⟨hderived o ho, (hderived o ho).normalize⟩
  · intro report hreport
    obtain ⟨-, rfl⟩ := (run_ok_iff hx hf).mp hreport
    refine ⟨fun o ho => ⟨hderived o ho, (hderived o ho).normalize⟩, ?_, ?_⟩
    · exact hf.overrideFacts fun o ho => (hderived o ho).1
    · exact floatFree_overrideFacts hfacts hderived

theorem run_floatFree_ofAge :
    ∃ report, (ofAge.run twenty none).1 = .ok report ∧ report.outputs.All Value.Exact ∧
      Accepted (overrideFacts twenty report.outputs)
        (Entries.override (Bindings.ofEntries twenty) report.outputs) := by
  have hx : ofAge.rules ≠ [] := List.cons_ne_nil _ _
  have hrules : ∀ r ∈ ofAge.rules, r.FloatFree := by decide +kernel
  have hf : Accepted twenty (.ofEntries twenty) := ⟨twenty, rfl, rfl⟩
  have hfacts : Value.FloatFreeEntries twenty := by simp [twenty, Value.FloatFreeEntries, Value.FloatFree]
  have hrun : (ofAge.run twenty none).1.isOk = true := by decide +kernel
  obtain ⟨-, -, -, -, hreport⟩ := run_floatFree ofAge none hx hrules hf hfacts
  obtain ⟨report, h⟩ := isOk_iff.mp hrun
  obtain ⟨houtputs, haccepted, -⟩ := hreport report h
  exact ⟨report, h, fun o ho => (houtputs o ho).1, haccepted⟩

/-- A rule that asks for the text of a fact. -/
def ofText : Executor where
  rules := [⟨"text", "", "0 <= 1", "n.toString()", "text", by decide, by decide, by decide⟩]
  ruleset := "texts"
  nullSafe := true

def fact (n : Int) : List (Key × Value) := [(.text "n", .number (.int n))]

theorem stalls_ofText {n : Int} (hn : (Number.int n).isWritable = false) :
    ∃ r, ofText.rules = [r] ∧ r.Stalls true ⟨.ofEntries (fact n), []⟩ .digits := by
  have hcondition : parse "0 <= 1" = .ok (.bin .le (.lit (.number (.int 0))) (.lit (.number (.int 1)))) := by
    with_unfolding_all rfl
  have htransformation : parse "n.toString()" = .ok (.method (.path "n" []) "toString" []) := by
    with_unfolding_all rfl
  have hfact : eval .builtin ⟨.ofEntries (fact n), []⟩ (.path "n" []) = .ok (.number (.int n)) := by
    rw [eval]
    rfl
  exact ⟨_, rfl, .transformation (.value hcondition (by with_unfolding_all rfl))
    (.expression htransformation (.text hfact hn))⟩

/-- Not every run over rules and facts without binary64 numbers is completed or failed. -/
theorem not_always_final_floatFree :
    ¬ ∀ (x : Executor) (nullSafe : Option Bool) (facts : List (Key × Value)) (known : Bindings),
      x.rules ≠ [] → (∀ r ∈ x.rules, r.FloatFree) → Accepted facts known →
      Value.FloatFreeEntries facts → ∀ run, x.start facts nullSafe = .ok run →
        (∃ report, run.execute.1 = .ok report ∧ run.execute.2.1.status = .completed) ∨
          ∃ e, run.execute.1 = .error (.rule e) ∧ run.execute.2.1.status = .failed := by
  intro h
  have hx : ofText.rules ≠ [] := List.cons_ne_nil _ _
  have hrules : ∀ r ∈ ofText.rules, r.FloatFree := by decide +kernel
  have hn : (Number.int (10 ^ mostDigits : Nat)).isWritable = false := by
    rw [← Bool.not_eq_true, Number.isWritable_int_iff, Int.natAbs_natCast]
    exact Nat.lt_irrefl _
  generalize (10 ^ mostDigits : Nat) = n at hn
  have hf : Accepted (fact n) (.ofEntries (fact n)) := ⟨fact n, rfl, rfl⟩
  have hfacts : Value.FloatFreeEntries (fact n) := by simp [fact, Value.FloatFreeEntries, Value.FloatFree]
  obtain ⟨r, hr, hstalls⟩ := stalls_ofText hn
  have hcrash : (ofText.run (fact n) none).1 = .error (.run (.crash .digits)) :=
    (crash_iff_stalls hx hf).mpr ⟨[], r, [], [], hr, .start, hstalls⟩
  obtain ⟨run, hstart, hresult, hends, -⟩ := run_ends ofText none hx hf
  rw [hcrash] at hresult
  rcases h ofText none _ _ hx hrules hf hfacts run hstart with ⟨report, hreport, -⟩ | ⟨e, he, -⟩
  · rw [hreport] at hresult
    cases hresult
  · rw [he] at hresult
    cases hresult

end

end Executor

end Rulebook
