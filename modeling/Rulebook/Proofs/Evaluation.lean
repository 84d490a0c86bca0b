import Rulebook.Eval
import Rulebook.Proofs.Trees
import Rulebook.Proofs.Values

set_option autoImplicit false

/-!
What evaluation can come to. A property of values that holds of the literals of a tree and of what its
context holds, and that every operation keeps, holds of the result; the only crashes are those of the
operations on numbers, and of displaying values. Closed values are such a property.
-/

namespace Rulebook

/-- Every operator but `and` and `or` only sees the values of its operands. -/
theorem eval_bin {functions : Registry} {c : Context} {op : BinOp} {e f : Expr} {v w : Value}
    (hand : op ≠ .and) (hor : op ≠ .or) (he : eval functions c e = .ok v)
    (hf : eval functions c f = .ok w) : eval functions c (.bin op e f) = op.apply v w := by
  cases op with
  | and => exact absurd rfl hand
  | or => exact absurd rfl hor
  | _ =>
    simp only [eval, he, hf]
    rfl

/-- The first argument that fails decides. -/
theorem evalAll_of_error {functions : Registry} {c : Context} {before after : List Expr} {a : Expr}
    {vs : List Value} {failure : Failure} (hbefore : evalAll functions c before = .ok vs)
    (ha : eval functions c a = .error failure) :
    evalAll functions c (before ++ a :: after) = .error failure := by
  induction before generalizing vs with
  | nil =>
    rw [List.nil_append, evalAll, ha]
    rfl
  | cons b before ih =>
    rw [evalAll] at hbefore
    obtain ⟨v, hv, hbefore⟩ := bind_eq_ok.mp hbefore
    obtain ⟨ws, hws, -⟩ := bind_eq_ok.mp hbefore
    rw [List.cons_append, evalAll, hv, ih hws]
    rfl

/-- A value with one property, an error, or a crash with the other. -/
def Outcome.Meets {α : Type} (P : α → Prop) (K : Crash → Prop) : Outcome α → Prop
  | .ok a => P a
  | .error (.error _) => True
  | .error (.crash c) => K c

namespace Outcome

variable {α β : Type} {P : α → Prop} {Q : β → Prop} {K : Crash → Prop}

theorem Meets.bind {x : Outcome α} {f : α → Outcome β} (hx : x.Meets P K)
    (hf : ∀ a, P a → (f a).Meets Q K) : Meets Q K (x >>= f) := by
  cases x with
  | ok a => exact hf a hx
  | error failure => cases failure <;> exact hx

theorem Meets.map {x : Outcome α} {f : α → β} (hx : x.Meets P K) (hf : ∀ a, P a → Q (f a)) :
    Meets Q K (f <$> x) := by
  cases x with
  | ok a => exact hf a hx
  | error failure => cases failure <;> exact hx

@[simp] theorem meets_ok (a : α) : Meets P K (.ok a) ↔ P a := Iff.rfl

@[simp] theorem meets_pure (a : α) : Meets P K (pure a) ↔ P a := Iff.rfl

@[simp] theorem meets_fail (e : EvalError) : Meets P K (fail e) := trivial

@[simp] theorem meets_mismatch (m : Mismatch) : Meets P K (mismatch m) := trivial

end Outcome

/-- A property of values that the operations of the language keep. Operations on numbers can crash, and so can
displaying a value. -/
structure Value.Law (P : Value → Prop) (K : Crash → Prop) : Prop where
  closed : ∀ {v}, P v → v.Closed
  null : P .null
  bool : ∀ b, P (.bool b)
  text : ∀ s, P (.text s)
  int : ∀ n, P (.int n)
  step : ∀ {v} (s : Segment), P v → P (v.step s)
  neg : ∀ {n : Number}, P (.number n) → P (.number n.neg)
  arith : ∀ (op : BinOp) (arith : ArithOp) {a b : Number}, P (.number a) → P (.number b) →
    (op.ofArith (a.arith arith b)).Meets P K
  digits : K .digits

/-- The method that gives the text of its receiver. -/
def Method.ofDisplay : Method :=
  ⟨"toString", [.boolean, .number, .string, .list, .map], 0, 0, "Display string.",
    fun r _ => .text <$> .ofDisplay r.display⟩

theorem Method.eq_toString {m : Method} (hm : m ∈ Method.builtin) (hname : m.name = "toString") :
    m = Method.ofDisplay := by
  simp only [Method.builtin, List.mem_cons, List.not_mem_nil, or_false] at hm
  rcases hm with rfl | rfl | rfl | rfl | rfl | rfl | rfl | rfl | rfl | rfl | rfl
  all_goals first | rfl | exact absurd hname (by decide)

section

-- operations that neither calculate nor display do not crash, whatever `K'` allows
variable {P : Value → Prop} {K K' : Crash → Prop} (law : Value.Law P K)

include law

theorem Value.Law.traverse {v : Value} (hv : P v) (ss : List Segment) : P (v.traverse ss) := by
  induction ss generalizing v with
  | nil => exact hv
  | cons s ss ih => exact ih (law.step s hv)

/-- The only thing asked of an operand of no fitting kind is its kind. -/
theorem Value.Law.kindOf {α : Type} {Q : α → Prop} {v : Value} (hv : P v) (f : Kind → Mismatch) :
    (v.kindOf >>= fun k => Outcome.mismatch (f k)).Meets Q K' := by
  obtain ⟨k, hk⟩ := Value.exists_kind_of_closed (law.closed hv)
  rw [Value.kindOf, hk]
  exact trivial

theorem Value.Law.asBoolean {v : Value} (hv : P v) (op : String) :
    (asBoolean op v).Meets (fun _ => True) K' := by
  cases v with
  | null => exact trivial
  | bool b => exact trivial
  | _ => exact law.kindOf hv _

theorem Value.Law.asCondition {v : Value} (hv : P v) : (asCondition v).Meets (fun _ => True) K' := by
  cases v with
  | null => exact trivial
  | bool b => exact trivial
  | _ => exact law.kindOf hv _

theorem Value.Law.compare (op : BinOp) (v w : Value) (k l : Kind) : (op.compare v w k l).Meets P K' := by
  unfold BinOp.compare
  split
  · exact law.bool _
  · exact law.bool _
  · exact trivial

/-- Displaying a value crashes for its digits only. -/
theorem Value.Law.display {v : Value} (hv : P v) : (Outcome.ofDisplay v.display).Meets (fun _ => True) K := by
  have hdisplays := Value.displays_of_closed (law.closed hv)
  generalize v.display = shown at hdisplays ⊢
  cases hdisplays with
  | text => exact trivial
  | digits => exact law.digits

theorem Value.Law.calculate (op : BinOp) (arith : ArithOp) {v w : Value} (hv : P v) (hw : P w)
    (k l : Kind) : (op.calculate arith v w k l).Meets P K := by
  unfold BinOp.calculate
  split
  · exact (law.display hv).bind fun s _ => (law.display hw).bind fun t _ => law.text _
  · split
    · exact law.arith op arith hv hw
    · exact trivial

theorem Value.Law.binary (op : BinOp) {v w : Value} (hv : P v) (hw : P w) :
    (op.apply v w).Meets P K := by
  obtain ⟨k, hk⟩ := Value.exists_kind_of_closed (law.closed hv)
  obtain ⟨l, hl⟩ := Value.exists_kind_of_closed (law.closed hw)
  obtain ⟨b, hb⟩ := Value.exists_equal_of_closed (law.closed hv) (law.closed hw)
  unfold BinOp.apply
  split
  · rw [hb]
    exact law.bool _
  · rw [hb]
    exact law.bool _
  · split
    · exact trivial
    · rw [Value.kindOf, Value.kindOf, hk, hl]
      change Outcome.Meets P K (if op.isOrder then op.compare v w k l else _)
      split
      · exact law.compare op v w k l
      · split
        · exact law.calculate op _ hv hw k l
        · exact trivial

theorem Value.Law.unary (op : UnOp) {v : Value} (hv : P v) : (op.apply v).Meets P K' := by
  unfold UnOp.apply
  split
  · exact (law.asBoolean hv _).map fun _ _ => law.bool _
  · split
    · exact trivial
    · exact law.neg hv
    · exact law.kindOf hv _

/-- An argument that is no text and no number is only asked for its kind. -/
theorem Value.Law.textArg {v : Value} (hv : P v) (function : String) (position : Nat) :
    (Function.textArg function position v).Meets (fun _ => True) K' := by
  cases v with
  | null => exact trivial
  | text s => exact trivial
  | _ => exact law.kindOf hv _

theorem Value.Law.wholeArg {v : Value} (hv : P v) (function : String) (position : Nat) :
    (Function.wholeArg function position v).Meets (fun _ => True) K' := by
  have hkind : v.kindOf.Meets (fun _ => True) K' := by
    obtain ⟨k, hk⟩ := Value.exists_kind_of_closed (law.closed hv)
    rw [Value.kindOf, hk]
    exact trivial
  rw [Function.wholeArg]
  refine hkind.bind fun k _ => ?_
  split
  · split <;> exact trivial
  · exact trivial

theorem Value.Law.ofText (s : Option Text) : P (Function.ofText s) := by
  cases s with
  | none => exact law.null
  | some s => exact law.text s

theorem Value.Law.nth {args : List Value} (h : ∀ v ∈ args, P v) (i : Nat) :
    P (Function.nth args i) := by
  rw [Function.nth, List.getD_eq_getElem?_getD]
  cases hi : args[i]? with
  | none => exact law.null
  | some v => exact h v (List.mem_of_getElem? hi)

theorem Value.Law.textFunction (name : String) (f : Text → Text) {args : List Value}
    (h : ∀ v ∈ args, P v) : (Function.textFunction name f args).Meets P K' := by
  unfold Function.textFunction
  exact (law.textArg (law.nth h 0) name 1).bind fun s _ => law.ofText _

theorem Value.Law.textTest (name : String) (test : Text → Text → Bool) {args : List Value}
    (h : ∀ v ∈ args, P v) : (Function.textTest name test args).Meets P K' := by
  unfold Function.textTest
  refine (law.textArg (law.nth h 0) name 1).bind fun s _ => ?_
  refine (law.textArg (law.nth h 1) name 2).bind fun t _ => ?_
  split <;> exact law.bool _

theorem Value.Law.substring {args : List Value} (h : ∀ v ∈ args, P v) :
    (Function.substring args).Meets P K' := by
  unfold Function.substring
  refine (law.textArg (law.nth h 0) _ _).bind fun s _ => ?_
  refine (law.wholeArg (law.nth h 1) _ _).bind fun start _ => ?_
  dsimp only
  split
  · refine Outcome.Meets.bind (P := fun _ => True) ?_ fun _ _ => law.ofText _
    exact (law.wholeArg (law.nth h 2) _ _).map fun _ _ => trivial
  · exact law.ofText _

theorem Value.Law.concatFrom {args : List Value} (h : ∀ v ∈ args, P v) (position : Nat) :
    (Function.concatFrom position args).Meets (fun _ => True) K' := by
  induction args generalizing position with
  | nil => exact trivial
  | cons v vs ih =>
    obtain ⟨hv, hvs⟩ := List.forall_mem_cons.mp h
    rw [Function.concatFrom]
    refine (law.textArg hv _ _).bind fun s _ => ?_
    exact (ih hvs (position + 1)).bind fun _ _ => trivial

theorem Value.Law.run {f : Function} (hf : f ∈ Function.builtin) {args : List Value}
    (h : ∀ v ∈ args, P v) : (f.run args).Meets P K' := by
  simp only [Function.builtin, List.mem_cons, List.not_mem_nil, or_false] at hf
  rcases hf with rfl | rfl | rfl | rfl | rfl | rfl | rfl | rfl | rfl
  · exact law.textFunction _ _ h
  · exact law.textFunction _ _ h
  · exact law.substring h
  · exact (law.concatFrom h 1).map fun _ _ => law.text _
  · exact (law.textArg (law.nth h 0) _ _).bind fun _ _ => law.int _
  · exact law.textTest _ _ h
  · exact law.textTest _ _ h
  · exact law.textTest _ _ h
  · exact law.textFunction _ _ h

theorem Value.Law.call {f : Function} (hf : f ∈ Function.builtin) {args : List Value}
    (h : ∀ v ∈ args, P v) : (f.call args).Meets P K' := by
  unfold Function.call
  split
  · exact law.run hf h
  · exact trivial

theorem Value.Law.methodTest (name : String) (test : Text → Text → Bool) (r : Value)
    {args : List Value} (h : ∀ v ∈ args, P v) : (Method.textTest name test r args).Meets P K' := by
  unfold Method.textTest
  refine Outcome.Meets.bind (P := fun _ => True) ?_ fun _ _ => law.bool _
  have harg := law.nth h 0
  unfold Method.textArg
  split
  · exact trivial
  · exact law.kindOf harg _

theorem Value.Law.methodSubstring (r : Value) {args : List Value} (h : ∀ v ∈ args, P v) :
    (Method.substring r args).Meets P K' := by
  unfold Method.substring
  refine (law.wholeArg (law.nth h 0) _ _).bind fun start _ => ?_
  dsimp only
  split
  · refine Outcome.Meets.bind (P := fun _ => True) ?_ fun _ _ => law.text _
    exact (law.wholeArg (law.nth h 1) _ _).map fun _ _ => trivial
  · exact law.text _

theorem Value.Law.runOther {m : Method} (hm : m ∈ Method.builtin) (hname : m.name ≠ "toString") {r : Value}
    {args : List Value} (h : ∀ v ∈ args, P v) : (m.run r args).Meets P K' := by
  simp only [Method.builtin, List.mem_cons, List.not_mem_nil, or_false] at hm
  rcases hm with rfl | rfl | rfl | rfl | rfl | rfl | rfl | rfl | rfl | rfl | rfl <;> dsimp only
  · exact law.int _
  · exact law.int _
  · exact law.text _
  · exact law.text _
  · exact law.methodSubstring r h
  · exact absurd rfl hname
  · exact law.text _
  · exact law.methodTest _ _ r h
  · exact law.methodTest _ _ r h
  · exact law.methodTest _ _ r h
  · exact law.bool _

/-- A method is asked for only after the receiver, the name and the number of arguments were checked. -/
theorem Value.Law.invoke_of_run {r : Value} (hr : P r) {name : String} {args : List Value}
    (hrun : ∀ m ∈ Method.builtin, m.name = name → (m.run r args).Meets P K') :
    (Method.invoke r name args).Meets P K' := by
  obtain ⟨k, hk⟩ := Value.exists_kind_of_closed (law.closed hr)
  unfold Method.invoke
  split
  · exact trivial
  · split
    · exact trivial
    · next m hm =>
      rw [Method.call, Value.kindOf, hk]
      change Outcome.Meets P K' (if _ then _ else if _ then _ else _)
      split
      · exact trivial
      · split
        · exact trivial
        · exact hrun m (List.mem_of_find?_eq_some hm) (by simpa using List.find?_some hm)

/-- No method but `toString` crashes. -/
theorem Value.Law.invokeOther {r : Value} (hr : P r) {name : String} (hname : name ≠ "toString")
    {args : List Value} (h : ∀ v ∈ args, P v) : (Method.invoke r name args).Meets P K' := by
  refine law.invoke_of_run hr fun m hm heq => law.runOther hm ?_ h
  rwa [heq]

theorem Value.Law.invoke {r : Value} (hr : P r) (name : String) {args : List Value}
    (h : ∀ v ∈ args, P v) : (Method.invoke r name args).Meets P K := by
  refine law.invoke_of_run hr fun m hm _ => ?_
  by_cases hname : m.name = "toString"
  · obtain rfl := Method.eq_toString hm hname
    exact (law.display hr).map fun s _ => law.text s
  · exact law.runOther hm hname h

end

mutual

/-- Every literal of a tree has a property, and every part of it is an expression. -/
def Expr.LiteralsIn (P : Value → Prop) : Expr → Prop
  | .lit v => P v
  | .path _ _ => True
  | .sub receiver _ => receiver.LiteralsIn P
  | .bin _ left right => left.LiteralsIn P ∧ right.LiteralsIn P
  | .un _ operand => operand.LiteralsIn P
  | .call _ args => Expr.AllLiteralsIn P args
  | .method receiver _ args => receiver.LiteralsIn P ∧ Expr.AllLiteralsIn P args
  | .foreign _ => False

def Expr.AllLiteralsIn (P : Value → Prop) : List Expr → Prop
  | [] => True
  | e :: es => e.LiteralsIn P ∧ Expr.AllLiteralsIn P es

end

mutual

theorem Value.Law.eval {P : Value → Prop} {K : Crash → Prop} (law : Value.Law P K) {c : Context}
    (hc : ∀ name, P (c.root name)) : ∀ {e : Expr}, e.LiteralsIn P → (eval .builtin c e).Meets P K
  | .lit v, he => by
    rw [Expr.LiteralsIn] at he
    rw [Rulebook.eval]
    exact he
  | .path root segments, _ => by
    rw [Rulebook.eval]
    exact law.traverse (hc root) segments
  | .sub receiver segments, he => by
    rw [Expr.LiteralsIn] at he
    rw [Rulebook.eval]
    exact (law.eval hc he).bind fun v hv => law.traverse hv segments
  | .bin op left right, he => by
    rw [Expr.LiteralsIn] at he
    have hleft := law.eval hc he.1
    have hright := law.eval hc he.2
    cases op with
    | and =>
      rw [Rulebook.eval]
      refine hleft.bind fun v hv => (law.asBoolean hv _).bind fun a _ => ?_
      cases a with
      | true => exact hright.bind fun w hw => (law.asBoolean hw _).bind fun b _ => law.bool b
      | false => exact law.bool false
    | or =>
      rw [Rulebook.eval]
      refine hleft.bind fun v hv => (law.asBoolean hv _).bind fun a _ => ?_
      cases a with
      | true => exact law.bool true
      | false => exact hright.bind fun w hw => (law.asBoolean hw _).bind fun b _ => law.bool b
    | _ =>
      simp only [Rulebook.eval]
      exact hleft.bind fun v hv => hright.bind fun w hw => law.binary _ hv hw
  | .un op operand, he => by
    rw [Expr.LiteralsIn] at he
    rw [Rulebook.eval]
    exact (law.eval hc he).bind fun v hv => law.unary op hv
  | .call name args, he => by
    rw [Expr.LiteralsIn] at he
    rw [Rulebook.eval]
    cases hf : Registry.builtin.find? name with
    | none => exact trivial
    | some f =>
      exact (law.evalAll hc he).bind fun vs hvs => law.call (List.mem_of_find?_eq_some hf) hvs
  | .method receiver name args, he => by
    rw [Expr.LiteralsIn] at he
    rw [Rulebook.eval]
    refine (law.eval hc he.1).bind fun r hr => ?_
    split
    · exact trivial
    · exact (law.evalAll hc he.2).bind fun vs hvs => law.invoke hr name hvs
  | .foreign _, he => by
    simp [Expr.LiteralsIn] at he

theorem Value.Law.evalAll {P : Value → Prop} {K : Crash → Prop} (law : Value.Law P K) {c : Context}
    (hc : ∀ name, P (c.root name)) :
    ∀ {es : List Expr}, Expr.AllLiteralsIn P es →
      (evalAll .builtin c es).Meets (fun vs => ∀ v ∈ vs, P v) K
  | [], _ => by
    rw [Rulebook.evalAll]
    simp
  | e :: es, he => by
    rw [Expr.AllLiteralsIn] at he
    rw [Rulebook.evalAll]
    refine (law.eval hc he.1).bind fun v hv => ?_
    exact (law.evalAll hc he.2).bind fun vs hvs => List.forall_mem_cons.mpr ⟨hv, hvs⟩

end

theorem Expr.allLiteralsIn_iff {P : Value → Prop} {es : List Expr} :
    Expr.AllLiteralsIn P es ↔ ∀ e ∈ es, e.LiteralsIn P := by
  induction es with
  | nil => simp [Expr.AllLiteralsIn]
  | cons e es ih => simp [Expr.AllLiteralsIn, ih]

theorem Expr.literalsIn_extend {P : Value → Prop} {e : Expr} (h : e.LiteralsIn P) (s : Segment) :
    (e.extend s).LiteralsIn P := by
  cases e with
  | path root segments => simp [Expr.extend, Expr.LiteralsIn]
  | sub receiver segments => simpa [Expr.extend, Expr.LiteralsIn] using h
  | _ => rwa [Expr.extend, Expr.LiteralsIn] <;> simp

theorem Expr.literalsIn_negate {P : Value → Prop} {e : Expr} (h : e.LiteralsIn P)
    (hneg : ∀ n : Number, P (.number n) → P (.number n.neg)) : e.negate.LiteralsIn P := by
  unfold Expr.negate
  split
  · rw [Expr.LiteralsIn] at h ⊢
    exact hneg _ h
  · rwa [Expr.LiteralsIn]

/-- The trees of the parser hold the literals that tokens stand for, and numbers with a minus. -/
theorem Parse.law_literalsIn {Q : Token → Prop} {P : Value → Prop}
    (hliteral : ∀ {t : Token} {v}, Q t → Parse.literal? t.kind = some v → P v)
    (hneg : ∀ n : Number, P (.number n) → P (.number n.neg)) :
    Parse.Law Q (Expr.LiteralsIn P) where
  literal ht h := by
    rw [Expr.LiteralsIn]
    exact hliteral ht h
  path _ _ := by simp [Expr.LiteralsIn]
  call _ _ hargs := by
    rw [Expr.LiteralsIn]
    exact Expr.allLiteralsIn_iff.mpr hargs
  method he _ _ hargs := by
    rw [Expr.LiteralsIn]
    exact ⟨he, Expr.allLiteralsIn_iff.mpr hargs⟩
  key he _ _ := Expr.literalsIn_extend he _
  index he _ _ := Expr.literalsIn_extend he _
  not he := by rwa [Expr.LiteralsIn]
  negate he := Expr.literalsIn_negate he hneg
  bin _ _ hl hr := by
    rw [Expr.LiteralsIn]
    exact ⟨hl, hr⟩

/-- The crashes of numbers: one beyond the range, a remainder that is not defined, or too many digits. -/
def Crash.IsNumeric : Crash → Prop
  | .overflow | .domain | .digits => True
  | _ => False

theorem Value.closed_law : Value.Law Value.Closed Crash.IsNumeric where
  closed := id
  null := by simp [Value.Closed]
  bool _ := by simp [Value.Closed]
  text _ := by simp [Value.Closed]
  int _ := by simp [Value.Closed, Value.int]
  step s hv := Value.closed_step hv s
  neg _ := by simp [Value.Closed]
  arith op arith a b _ _ := by
    cases a.arith arith b with
    | ok n => simp [BinOp.ofArith, Value.Closed]
    | error fault => cases fault <;> exact trivial
  digits := trivial

/-- A parsed tree holds closed values only. -/
theorem Expr.closed_of_parse {text : String} {e : Expr} (h : parse text = .ok e) :
    e.LiteralsIn Value.Closed := by
  have hliteral : ∀ {t : Token} {v}, True → Parse.literal? t.kind = some v → v.Closed := by
    rintro ⟨kind, text, position⟩ v - hv
    cases kind <;> simp only [Parse.literal?, Option.some.injEq, reduceCtorEq] at hv <;>
      simp [← hv, Value.Closed]
  exact (Parse.law_literalsIn hliteral fun _ => Value.closed_law.neg).parse
    (fun _ _ _ _ => trivial) h

end Rulebook
