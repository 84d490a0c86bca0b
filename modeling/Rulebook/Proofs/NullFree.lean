import Rulebook.Proofs.Forgiveness
import Rulebook.Proofs.Printing

set_option autoImplicit false

/-!
Where null comes from. A tree without null literals and without subscripts, whose paths all lead to some value
in the context, does not come to null and uses null nowhere. So a null-safe run has nothing to forgive a rule
that is made of such trees.
-/

namespace Rulebook

/-! ### Outcomes without null -/

/-- A value with a property, a crash, or an error that is not the use of null. -/
def Outcome.NullFree {α : Type} (P : α → Prop) : Outcome α → Prop
  | .ok a => P a
  | .error (.error e) => e.isNullAccess = false
  | .error (.crash _) => True

namespace Outcome

variable {α β : Type} {P : α → Prop} {Q : β → Prop}

theorem NullFree.bind {x : Outcome α} {f : α → Outcome β} (hx : x.NullFree P)
    (hf : ∀ a, P a → (f a).NullFree Q) : NullFree Q (x >>= f) := by
  cases x with
  | ok a => exact hf a hx
  | error failure => cases failure <;> exact hx

theorem NullFree.map {x : Outcome α} {f : α → β} (hx : x.NullFree P) (hf : ∀ a, P a → Q (f a)) :
    NullFree Q (f <$> x) := by
  cases x with
  | ok a => exact hf a hx
  | error failure => cases failure <;> exact hx

theorem nullFree_ofValue (x : Except ValueFault α) : (ofValue x).NullFree fun _ => True := by
  cases x <;> exact trivial

theorem nullFree_ofDisplay (x : Except DisplayFault α) : (ofDisplay x).NullFree fun _ => True := by
  cases x with
  | ok a => exact trivial
  | error fault => cases fault <;> exact trivial

end Outcome

section

variable {α : Type} {P : α → Prop} {v w : Value} {args : List Value}

/-! ### Operations on values other than null -/

theorem Value.nullFree_kindOf (v : Value) : v.kindOf.NullFree fun _ => True := Outcome.nullFree_ofValue v.kind

theorem Value.nullFree_mismatch (v : Value) (f : Kind → Mismatch) :
    (v.kindOf >>= fun k => Outcome.mismatch (f k)).NullFree P :=
  v.nullFree_kindOf.bind fun _ _ => rfl

theorem nullFree_asBoolean (hv : v ≠ .null) (op : String) : (asBoolean op v).NullFree fun _ => True := by
  cases v with
  | null => exact absurd rfl hv
  | bool b => exact trivial
  | _ => exact Value.nullFree_mismatch _ _

theorem nullFree_asCondition (hv : v ≠ .null) : (asCondition v).NullFree fun _ => True := by
  cases v with
  | null => exact absurd rfl hv
  | bool b => exact trivial
  | _ => exact Value.nullFree_mismatch _ _

theorem eq_bool_of_asCondition {b : Bool} (h : asCondition v = .ok b) : v = .bool b := by
  cases v with
  | bool a =>
    cases h
    rfl
  | tuple | foreign => cases h
  | _ => cases h

theorem Value.isNull_eq_false (hv : v ≠ .null) : v.isNull = false := by
  cases v with
  | null => exact absurd rfl hv
  | _ => rfl

namespace BinOp

theorem nullFree_compare (op : BinOp) (v w : Value) (k l : Kind) :
    (op.compare v w k l).NullFree (· ≠ .null) := by
  unfold compare
  split
  · exact Value.noConfusion
  · exact Value.noConfusion
  · rfl

theorem nullFree_ofArith (op : BinOp) (x : Except ArithFault Number) :
    (op.ofArith x).NullFree (· ≠ .null) := by
  cases x with
  | ok n => exact Value.noConfusion
  | error fault =>
    cases fault with
    | divisionByZero => rfl
    | overflow => exact trivial
    | domain => exact trivial

theorem nullFree_calculate (op : BinOp) (arith : ArithOp) (v w : Value) (k l : Kind) :
    (op.calculate arith v w k l).NullFree (· ≠ .null) := by
  unfold calculate
  split
  · refine (Outcome.nullFree_ofDisplay v.display).bind fun s _ => ?_
    exact (Outcome.nullFree_ofDisplay w.display).bind fun t _ => Value.noConfusion
  · split
    · exact nullFree_ofArith op _
    · rfl

theorem nullFree_apply (op : BinOp) (hv : v ≠ .null) (hw : w ≠ .null) :
    (op.apply v w).NullFree (· ≠ .null) := by
  unfold apply
  split
  · exact (Outcome.nullFree_ofValue _).map fun _ _ => Value.noConfusion
  · exact (Outcome.nullFree_ofValue _).map fun _ _ => Value.noConfusion
  · rw [Value.isNull_eq_false hv, Value.isNull_eq_false hw]
    refine v.nullFree_kindOf.bind fun k _ => w.nullFree_kindOf.bind fun l _ => ?_
    split
    · exact nullFree_compare op v w k l
    · split
      · exact nullFree_calculate op _ v w k l
      · rfl

end BinOp

theorem UnOp.nullFree_apply (op : UnOp) (hv : v ≠ .null) : (op.apply v).NullFree (· ≠ .null) := by
  unfold apply
  split
  · exact (nullFree_asBoolean hv _).map fun _ _ => Value.noConfusion
  · split
    · exact absurd rfl hv
    · exact Value.noConfusion
    · exact Value.nullFree_mismatch _ _

namespace Function

theorem nullFree_textArg (hv : v ≠ .null) (function : String) (position : Nat) :
    (textArg function position v).NullFree fun s => ∃ t, s = some t := by
  cases v with
  | null => exact absurd rfl hv
  | text s => exact ⟨s, rfl⟩
  | _ => exact Value.nullFree_mismatch _ _

theorem nullFree_wholeArg (function : String) (position : Nat) (v : Value) :
    (wholeArg function position v).NullFree fun _ => True := by
  rw [wholeArg]
  refine v.nullFree_kindOf.bind fun k _ => ?_
  split
  · split
    · exact trivial
    · rfl
  · rfl

/-- Only an argument that is missing is null. -/
theorem nth_ne_null (h : ∀ v ∈ args, v ≠ .null) {i : Nat} (hi : i < args.length) : nth args i ≠ .null := by
  rw [nth, List.getD_eq_getElem?_getD, List.getElem?_eq_getElem hi]
  exact h _ (List.getElem_mem hi)

theorem nullFree_textFunction (name : String) (f : Text → Text) (h : ∀ v ∈ args, v ≠ .null)
    (hlength : 0 < args.length) : (textFunction name f args).NullFree (· ≠ .null) := by
  unfold textFunction
  refine (nullFree_textArg (nth_ne_null h hlength) name 1).bind fun s hs => ?_
  obtain ⟨t, rfl⟩ := hs
  exact Value.noConfusion

theorem nullFree_textTest (name : String) (test : Text → Text → Bool) (h : ∀ v ∈ args, v ≠ .null)
    (hlength : 1 < args.length) : (textTest name test args).NullFree (· ≠ .null) := by
  unfold textTest
  refine (nullFree_textArg (nth_ne_null h (Nat.zero_lt_of_lt hlength)) name 1).bind fun s _ => ?_
  refine (nullFree_textArg (nth_ne_null h hlength) name 2).bind fun t _ => ?_
  split <;> exact Value.noConfusion

theorem nullFree_substring (h : ∀ v ∈ args, v ≠ .null) (hlength : 0 < args.length) :
    (substring args).NullFree (· ≠ .null) := by
  unfold substring
  refine (nullFree_textArg (nth_ne_null h hlength) _ _).bind fun s hs => ?_
  obtain ⟨t, rfl⟩ := hs
  refine (nullFree_wholeArg _ _ _).bind fun start _ => ?_
  dsimp only
  split
  · refine Outcome.NullFree.bind (P := fun _ => True) ?_ fun _ _ => Value.noConfusion
    exact (nullFree_wholeArg _ _ _).map fun _ _ => trivial
  · exact Value.noConfusion

theorem nullFree_concatFrom (h : ∀ v ∈ args, v ≠ .null) (position : Nat) :
    (concatFrom position args).NullFree fun _ => True := by
  induction args generalizing position with
  | nil => exact trivial
  | cons v vs ih =>
    obtain ⟨hv, hvs⟩ := List.forall_mem_cons.mp h
    rw [concatFrom]
    refine (nullFree_textArg hv _ _).bind fun s _ => ?_
    exact (ih hvs (position + 1)).bind fun _ _ => trivial

theorem nullFree_length (h : ∀ v ∈ args, v ≠ .null) (hlength : 0 < args.length) :
    (length args).NullFree (· ≠ .null) :=
  (nullFree_textArg (nth_ne_null h hlength) _ _).bind fun _ _ => Value.noConfusion

/-- A function that is called with as many arguments as it takes, none of them null. -/
theorem nullFree_run {f : Function} (hf : f ∈ builtin) (h : ∀ v ∈ args, v ≠ .null)
    (harity : f.arity.least ≤ args.length) : (f.run args).NullFree (· ≠ .null) := by
  simp only [builtin, List.mem_cons, List.not_mem_nil, or_false] at hf
  rcases hf with rfl | rfl | rfl | rfl | rfl | rfl | rfl | rfl | rfl
  · exact nullFree_textFunction _ _ h harity
  · exact nullFree_textFunction _ _ h harity
  · exact nullFree_substring h (Nat.zero_lt_of_lt harity)
  · exact (nullFree_concatFrom h 1).map fun _ _ => Value.noConfusion
  · exact nullFree_length h harity
  · exact nullFree_textTest _ _ h harity
  · exact nullFree_textTest _ _ h harity
  · exact nullFree_textTest _ _ h harity
  · exact nullFree_textFunction _ _ h harity

theorem nullFree_call {f : Function} (hf : f ∈ builtin) (h : ∀ v ∈ args, v ≠ .null) :
    (f.call args).NullFree (· ≠ .null) := by
  unfold call
  split
  · next hadmits =>
    rw [Arity.admits, Bool.and_eq_true, decide_eq_true_eq] at hadmits
    exact nullFree_run hf h hadmits.1
  · rfl

end Function

namespace Method

theorem nullFree_textArg (method : String) (v : Value) : (textArg method v).NullFree fun _ => True := by
  unfold textArg
  split
  · exact trivial
  · exact Value.nullFree_mismatch _ _

theorem nullFree_textTest (name : String) (test : Text → Text → Bool) (r : Value) (args : List Value) :
    (textTest name test r args).NullFree (· ≠ .null) :=
  (nullFree_textArg name _).bind fun _ _ => Value.noConfusion

theorem nullFree_substring (r : Value) (args : List Value) : (substring r args).NullFree (· ≠ .null) := by
  unfold substring
  refine (Function.nullFree_wholeArg _ _ _).bind fun start _ => ?_
  dsimp only
  split
  · refine Outcome.NullFree.bind (P := fun _ => True) ?_ fun _ _ => Value.noConfusion
    exact (Function.nullFree_wholeArg _ _ _).map fun _ _ => trivial
  · exact Value.noConfusion

/-- The methods do not even look for null among their arguments. -/
theorem nullFree_run {m : Method} (hm : m ∈ builtin) (r : Value) (args : List Value) :
    (m.run r args).NullFree (· ≠ .null) := by
  simp only [builtin, List.mem_cons, List.not_mem_nil, or_false] at hm
  rcases hm with rfl | rfl | rfl | rfl | rfl | rfl | rfl | rfl | rfl | rfl | rfl <;> dsimp only
  · exact Value.noConfusion
  · exact Value.noConfusion
  · exact Value.noConfusion
  · exact Value.noConfusion
  · exact nullFree_substring r args
  · exact (Outcome.nullFree_ofDisplay _).map fun _ _ => Value.noConfusion
  · exact Value.noConfusion
  · exact nullFree_textTest _ _ r args
  · exact nullFree_textTest _ _ r args
  · exact nullFree_textTest _ _ r args
  · exact Value.noConfusion

theorem nullFree_invoke (hv : v ≠ .null) (name : String) (args : List Value) :
    (invoke v name args).NullFree (· ≠ .null) := by
  rw [invoke, Value.isNull_eq_false hv, if_neg Bool.false_ne_true]
  split
  · rfl
  · next m hm =>
    refine v.nullFree_kindOf.bind fun k _ => ?_
    split
    · rfl
    · split
      · rfl
      · exact nullFree_run (List.mem_of_find?_eq_some hm) v args

end Method

end

/-! ### Trees -/

/-- The tree can be null on its own account: a null literal, a path that leads to null, or a subscript, whose
steps are taken in a value that is only computed. -/
def Expr.MayBeNull (c : Context) : Expr → Prop
  | .lit v => v = .null
  | .path root segments => (c.root root).traverse segments = .null
  | .sub _ _ => True
  | _ => False

/-- Nothing in the tree can be null on its own account. -/
def Expr.Resolves (c : Context) (e : Expr) : Prop := ∀ t ∈ e.subtrees, ¬t.MayBeNull c

namespace Expr

variable {c : Context} {e receiver left right operand : Expr} {args : List Expr}

theorem resolves_lit {v : Value} : (lit v).Resolves c ↔ v ≠ .null := by
  simp [Resolves, subtrees, MayBeNull]

theorem resolves_path {root : String} {segments : List Segment} :
    (path root segments).Resolves c ↔ (c.root root).traverse segments ≠ .null := by
  simp [Resolves, subtrees, MayBeNull]

theorem not_resolves_sub {segments : List Segment} : ¬(sub receiver segments).Resolves c := by
  simp [Resolves, subtrees, MayBeNull]

theorem resolves_bin {op : BinOp} : (bin op left right).Resolves c ↔ left.Resolves c ∧ right.Resolves c := by
  rw [Resolves, subtrees, List.forall_mem_cons, List.forall_mem_append]
  exact and_iff_right id

theorem resolves_un {op : UnOp} : (un op operand).Resolves c ↔ operand.Resolves c := by
  rw [Resolves, subtrees, List.forall_mem_cons]
  exact and_iff_right id

theorem resolves_call {name : String} : (call name args).Resolves c ↔ ∀ e ∈ args, e.Resolves c := by
  rw [Resolves, subtrees, List.forall_mem_cons, forall_mem_subtreesAll]
  exact and_iff_right id

theorem resolves_method {name : String} :
    (method receiver name args).Resolves c ↔ receiver.Resolves c ∧ ∀ e ∈ args, e.Resolves c := by
  rw [Resolves, subtrees, List.forall_mem_cons, List.forall_mem_append, forall_mem_subtreesAll]
  exact and_iff_right id

mutual

/-- A tree that resolves does not come to null. -/
theorem Resolves.nullFree_eval {c : Context} :
    ∀ {e : Expr}, e.Resolves c → (eval .builtin c e).NullFree (· ≠ .null)
  | .lit v, he => by
    rw [eval]
    exact resolves_lit.mp he
  | .path root segments, he => by
    rw [eval]
    exact resolves_path.mp he
  | .sub receiver segments, he => absurd he not_resolves_sub
  | .bin op left right, he => by
    have hleft := (resolves_bin.mp he).1.nullFree_eval
    have hright := (resolves_bin.mp he).2.nullFree_eval
    cases op with
    | and =>
      rw [eval]
      refine hleft.bind fun v hv => (nullFree_asBoolean hv _).bind fun a _ => ?_
      cases a with
      | true => exact hright.bind fun w hw => (nullFree_asBoolean hw _).bind fun _ _ => Value.noConfusion
      | false => exact Value.noConfusion
    | or =>
      rw [eval]
      refine hleft.bind fun v hv => (nullFree_asBoolean hv _).bind fun a _ => ?_
      cases a with
      | true => exact Value.noConfusion
      | false => exact hright.bind fun w hw => (nullFree_asBoolean hw _).bind fun _ _ => Value.noConfusion
    | _ =>
      simp only [eval]
      exact hleft.bind fun v hv => hright.bind fun w hw => BinOp.nullFree_apply _ hv hw
  | .un op operand, he => by
    rw [eval]
    exact (resolves_un.mp he).nullFree_eval.bind fun v hv => UnOp.nullFree_apply op hv
  | .call name args, he => by
    have hargs := resolves_all_nullFree_eval (resolves_call.mp he)
    rw [eval]
    cases hf : Registry.builtin.find? name with
    | none => rfl
    | some f =>
      exact hargs.bind fun vs hvs => Function.nullFree_call (List.mem_of_find?_eq_some hf) hvs
  | .method receiver name args, he => by
    have hreceiver := (resolves_method.mp he).1.nullFree_eval
    have hargs := resolves_all_nullFree_eval (resolves_method.mp he).2
    rw [eval]
    refine hreceiver.bind fun r hr => ?_
    rw [Value.isNull_eq_false hr, if_neg Bool.false_ne_true]
    exact hargs.bind fun vs _ => Method.nullFree_invoke hr name vs
  | .foreign typeName, _ => by
    rw [eval]
    exact trivial

theorem resolves_all_nullFree_eval {c : Context} :
    ∀ {es : List Expr}, (∀ e ∈ es, e.Resolves c) →
      (evalAll .builtin c es).NullFree fun vs => ∀ v ∈ vs, v ≠ .null
  | [], _ => by
    rw [evalAll]
    exact fun _ hv => absurd hv List.not_mem_nil
  | e :: es, he => by
    obtain ⟨he, hes⟩ := List.forall_mem_cons.mp he
    rw [evalAll]
    refine he.nullFree_eval.bind fun v hv => ?_
    exact (resolves_all_nullFree_eval hes).bind fun vs hvs => List.forall_mem_cons.mpr ⟨hv, hvs⟩

end

theorem Resolves.nullFree_evalCondition (he : e.Resolves c) :
    (evalCondition .builtin c e).NullFree fun _ => True :=
  he.nullFree_eval.bind fun _ hv => nullFree_asCondition hv

end Expr

/-! ### Rules -/

/-- Every tree that the text is parsed as resolves. -/
def TextResolves (c : Context) (text : String) : Prop := ∀ e, parse text = .ok e → e.Resolves c

/-- The condition and the transformation resolve. -/
def Rule.Resolves (c : Context) (r : Rule) : Prop :=
  TextResolves c r.condition ∧ TextResolves c r.transformation

section

variable {α : Type} {P : α → Prop} {nullSafe : Bool} {fallback a : α} {text : String} {run : Expr → Outcome α}

theorem forgiven_attempt_of_nullFree (h : ∀ e, parse text = .ok e → (run e).NullFree P) :
    (attempt nullSafe fallback text run).forgiven = none := by
  cases hp : parse text with
  | error unread =>
    cases unread with
    | fault fault => rw [attempt_of_fault hp]
    | digits => rw [attempt_of_digits hp]
  | ok e =>
    have hrun := h e hp
    cases hr : run e with
    | ok a => rw [attempt_of_ok hp hr]
    | error failure =>
      rw [hr] at hrun
      cases failure with
      | crash k => rw [attempt_of_crash hp hr]
      | error err =>
        have hother : err.isNullAccess = false := hrun
        rw [attempt_of_error hp hr, if_neg (by simp [hother])]

theorem Yields.of_nullFree (h : Yields nullSafe fallback text run a)
    (hfree : ∀ e, parse text = .ok e → (run e).NullFree P) : ∃ e, parse text = .ok e ∧ run e = .ok a := by
  cases h with
  | value hp hr => exact ⟨_, hp, hr⟩
  | forgiven _ hp hr hnull =>
    have hother := hfree _ hp
    rw [hr] at hother
    cases hnull.symm.trans hother

end

namespace Rule

variable {c : Context} {r : Rule}

theorem Resolves.forgiven_eq_none (h : r.Resolves c) : r.forgiven c = none := by
  have hcondition : (r.attemptCondition true c).forgiven = none :=
    forgiven_attempt_of_nullFree fun e he => (h.1 e he).nullFree_evalCondition
  have htransformation : (r.attemptTransformation true c).forgiven = none :=
    forgiven_attempt_of_nullFree fun e he => (h.2 e he).nullFree_eval
  unfold forgiven
  split
  · rw [hcondition, htransformation]
    rfl
  · exact hcondition

end Rule

/-- The context that the rule in some position sees in a run. -/
def contextAt (nullSafe : Bool) (facts : Bindings) (p : Progress) (rs : List Rule) (i : Nat) : Context :=
  (passRules nullSafe facts p (rs.take i)).progress.context facts

/-- What is forgiven in a run is forgiven to a rule in the context that it sees. -/
theorem ForgivesAt.forgiven_contextAt {facts : Bindings} {p : Progress} {rs : List Rule} {i : Nat}
    {e : EvalError} (h : ForgivesAt facts p rs i e) :
    ∃ r, rs[i]? = some r ∧ r.forgiven (contextAt true facts p rs i) = some e := by
  induction h with
  | here hf => exact ⟨_, rfl, hf⟩
  | @later p r rs done i e he _ ih =>
    obtain ⟨s, hs, hf⟩ := ih
    refine ⟨s, hs, ?_⟩
    rw [contextAt, List.take_succ_cons, passRules_of_ok he]
    exact hf

/-- A tree that resolves comes to a value other than null, or to an error that is not the use of null. A rule
of such trees is forgiven nothing: it does the same in a null-safe run as in a strict one, skips only if
its condition is false, and writes no null. So no run forgives anything to a rule that resolves in the context
which it sees. -/
theorem null_only_from_null :
    (∀ (c : Context) (e : Expr), e.Resolves c →
      eval .builtin c e ≠ .ok .null ∧
        ∀ err, eval .builtin c e = .error (.error err) → err.isNullAccess = false) ∧
      (∀ (c : Context) (r : Rule), r.Resolves c →
        r.forgiven c = none ∧ r.effect true c = r.effect false c ∧ r.events true c = r.events false c ∧
          (r.effect true c = .ok none →
            ∃ e, parse r.condition = .ok e ∧ eval .builtin c e = .ok (.bool false)) ∧
          ∀ v, r.effect true c = .ok (some v) → v ≠ .null) ∧
      ∀ (facts : Bindings) (p : Progress) (rs : List Rule) (i : Nat) (r : Rule), rs[i]? = some r →
        r.Resolves (contextAt true facts p rs i) → ∀ e, ¬ForgivesAt facts p rs i e := by
  refine ⟨fun c e he => ?_, fun c r hr => ?_, fun facts p rs i r hi hr e hat => ?_⟩
  · have hfree := he.nullFree_eval
    constructor
    · intro hnull
      rw [hnull] at hfree
      exact hfree rfl
    · intro err herr
      rw [herr] at hfree
      exact hfree
  · obtain ⟨heffect, hevents⟩ := Rule.strict_of_not_forgiven hr.forgiven_eq_none
    refine ⟨hr.forgiven_eq_none, heffect.symm, hevents.symm, fun hskip => ?_, fun v hv => ?_⟩
    · have hyields := Rule.effect_eq_none_iff.mp hskip
      obtain ⟨e, hp, hfalse⟩ := hyields.of_nullFree fun e he => (hr.1 e he).nullFree_evalCondition
      obtain ⟨v, hv, hbool⟩ := bind_eq_ok.mp hfalse
      rw [eq_bool_of_asCondition hbool] at hv
      exact ⟨e, hp, hv⟩
    · obtain ⟨-, hyields⟩ := Rule.effect_eq_some_iff.mp hv
      obtain ⟨e, hp, hvalue⟩ := hyields.of_nullFree fun e he => (hr.2 e he).nullFree_eval
      have hfree := (hr.2 e hp).nullFree_eval
      rw [hvalue] at hfree
      exact hfree
  · obtain ⟨s, hs, hf⟩ := hat.forgiven_contextAt
    cases hi.symm.trans hs
    cases hr.forgiven_eq_none.symm.trans hf

/-- A greeting for everyone who is not away. -/
def ofGreeting : Rule :=
  ⟨"greeting", "", "NOT person.away", "CONCAT('dear ', person.name)", "welcome", by decide, by decide,
    by decide⟩

def ofAda : Context :=
  ⟨[("person", .map [(.text "name", .text "ada"), (.text "away", .bool false)])], []⟩

theorem null_only_from_null_ofGreeting :
    ofGreeting.Resolves ofAda ∧
      (∃ e, parse ofGreeting.transformation = .ok e ∧ e.Resolves ofAda ∧
        eval .builtin ofAda e ≠ .ok .null) ∧
      ofGreeting.effect false ofAda = .ok (some (.text "dear ada")) ∧
      ofGreeting.effect true ofAda = .ok (some (.text "dear ada")) ∧
      ∀ e, ¬ForgivesAt ofAda.facts .start [ofGreeting] 0 e := by
  have hcondition : parse ofGreeting.condition = .ok (.un .not (.path "person" [.key "away"])) := by
    with_unfolding_all rfl
  have htransformation : parse ofGreeting.transformation =
      .ok (.call "CONCAT" [.lit (.text "dear "), .path "person" [.key "name"]]) := by
    with_unfolding_all rfl
  have haway : (ofAda.root "person").traverse [.key "away"] = .bool false := rfl
  have hname : (ofAda.root "person").traverse [.key "name"] = .text "ada" := rfl
  have hresolves : ofGreeting.Resolves ofAda := by
    constructor
    · intro e he
      cases hcondition.symm.trans he
      rw [Expr.resolves_un, Expr.resolves_path, haway]
      exact Value.noConfusion
    · intro e he
      cases htransformation.symm.trans he
      rw [Expr.resolves_call]
      simp [Expr.resolves_lit, Expr.resolves_path, hname]
  have hstrict : ofGreeting.effect false ofAda = .ok (some (.text "dear ada")) :=
    Rule.effect_eq_some_iff.mpr ⟨.value hcondition rfl, .value htransformation rfl⟩
  obtain ⟨htree, hrule, hrun⟩ := null_only_from_null
  have htransformed := hresolves.2 _ htransformation
  exact ⟨hresolves, ⟨_, htransformation, htransformed, (htree _ _ htransformed).1⟩, hstrict,
    (hrule _ _ hresolves).2.1.trans hstrict, hrun _ _ _ 0 _ rfl hresolves⟩

end Rulebook
