import Rulebook.Proofs.Evaluation

set_option autoImplicit false

/-!
Where evaluation crashes. On closed values it crashes exactly if it comes to an operation that has no
result: an integer beyond the binary64 numbers meets one of them, the remainder of an infinity is asked for,
or the text of a value that holds an integer of too many digits.
-/

namespace Rulebook

/-! ### Operations without a result -/

namespace Double

theorem spacing_le {units : Nat} (h : units ≠ 0) : spacing units ≤ units := by
  have hexponent : 2 ^ (units.log2 + 1 - 53) ≤ 2 ^ units.log2 :=
    Nat.pow_le_pow_right (by decide) (by omega)
  exact Nat.le_trans hexponent (Nat.log2_self_le h)

theorem spacing_pos (units : Nat) : 0 < spacing units := Nat.pow_pos (by decide)

theorem divNearest_pos {num den : Nat} (hden : 0 < den) (h : den ≤ num) : 0 < divNearest num den := by
  have hquotient : 0 < num / den := Nat.div_pos h hden
  rw [divNearest]
  split <;> omega

/-- No integer but zero is rounded to zero. -/
theorem isZero_of_ofInt? {n : Int} {x : Double} (h : ofInt? n = some x) (hn : n ≠ 0) :
    x.isZero = false := by
  have hunits : n.natAbs * unitsPerOne ≠ 0 :=
    Nat.mul_ne_zero (Int.natAbs_ne_zero.mpr hn) (by decide)
  have hpos : 0 < spacing (n.natAbs * unitsPerOne) := spacing_pos _
  have hrounded : 0 < divNearest (n.natAbs * unitsPerOne) (spacing (n.natAbs * unitsPerOne)) :=
    divNearest_pos hpos (spacing_le hunits)
  rw [ofInt?, ofRatio, Nat.div_one] at h
  simp only [Nat.one_mul] at h
  generalize n.natAbs * unitsPerOne = units at *
  split at h
  · split at h
    · cases h
      simp only [isZero, beq_eq_false_iff_ne]
      exact Nat.ne_of_gt (Nat.mul_pos hrounded hpos)
    · cases h
  · cases h

end Double

/-- Two numbers to which an operation cannot be applied, and what comes of it. -/
inductive Number.NoResult : ArithOp → Number → Number → Crash → Prop
  | left {op : ArithOp} {n : Int} {x : Double} : Double.ofInt? n = none →
      (Number.ArithOp.divides op && x.isZero) = false → NoResult op (.int n) (.float x) .overflow
  | right {op : ArithOp} {x : Double} {n : Int} : Double.ofInt? n = none →
      NoResult op (.float x) (.int n) .overflow
  | remainder {s : Bool} {b : Number} {y : Double} : b.toDouble? = some y → y ≠ .nan →
      b.isZero = false → NoResult .rem (.float (.infinite s)) b .domain

namespace Number

/-- A remainder has no result if the dividend is infinite or the divisor is zero. -/
theorem rem?_eq_none {x y : Double} (h : x.rem? y = none) :
    y ≠ .nan ∧ ((∃ s, x = .infinite s) ∨ y.isZero = true) := by
  cases x <;> cases y <;> simp_all [Double.rem?, Double.isZero]

theorem floatArith_eq_none {op : ArithOp} {x y : Double} (h : floatArith op x y = none) :
    op = .rem ∧ x.rem? y = none := by
  cases op <;> simp_all [floatArith]

theorem isZero_of_toDouble? {b : Number} {y : Double} (h : b.toDouble? = some y)
    (hb : b.isZero = false) : y.isZero = false := by
  cases b with
  | int n => exact Double.isZero_of_ofInt? h (by simpa [isZero] using hb)
  | float x =>
    cases h
    exact hb

theorem ofInt?_ne_infinite {n : Int} {s : Bool} : Double.ofInt? n ≠ some (.infinite s) := by
  intro h
  rw [Double.ofInt?] at h
  split at h
  · next hfinite =>
    rw [Option.some.injEq] at h
    rw [h] at hfinite
    cases hfinite
  · cases h

/-- Two numbers that can be rounded have no result only if a remainder of an infinity is asked for. -/
theorem noResult_of_floatArith {op : ArithOp} {a b : Number} {x y : Double} (ha : a.toDouble? = some x)
    (hb : b.toDouble? = some y) (hdivides : (ArithOp.divides op && b.isZero) = false)
    (h : floatArith op x y = none) : NoResult op a b .domain := by
  obtain ⟨rfl, hrem⟩ := floatArith_eq_none h
  have hzero : b.isZero = false := by simpa [ArithOp.divides] using hdivides
  obtain ⟨hnan, ⟨s, rfl⟩ | hy⟩ := rem?_eq_none hrem
  · cases a with
    | int n => exact absurd ha ofInt?_ne_infinite
    | float z =>
      cases ha
      exact .remainder hb hnan hzero
  · rw [isZero_of_toDouble? hb hzero] at hy
    cases hy

theorem noResult_of_not_rounded {op : ArithOp} {a b : Number}
    (hdivides : (ArithOp.divides op && b.isZero) = false) (hints : ∀ m n, a = int m → b = int n → False)
    (hnone : ∀ x y, a.toDouble? = some x → b.toDouble? = some y → False) :
    NoResult op a b .overflow := by
  cases a with
  | int m =>
    cases b with
    | int n => exact (hints m n rfl rfl).elim
    | float y =>
      cases hm : Double.ofInt? m with
      | none => exact .left hm hdivides
      | some x => exact (hnone x y hm rfl).elim
  | float x =>
    cases b with
    | int n =>
      cases hn : Double.ofInt? n with
      | none => exact .right hn
      | some y => exact (hnone x y rfl hn).elim
    | float y => exact (hnone x y rfl rfl).elim

/-- Arithmetic crashes on the numbers that have no result. -/
theorem noResult_of_crash {op : BinOp} {arith : ArithOp} {a b : Number} {k : Crash}
    (h : op.ofArith (a.arith arith b) = .error (.crash k)) : NoResult arith a b k := by
  unfold Number.arith at h
  split at h
  · cases h
  · next hdivides =>
    rw [Bool.not_eq_true] at hdivides
    split at h
    · cases h
    · next hints =>
      split at h
      · next ha hb =>
        split at h
        · cases h
        · next hnone =>
          cases h
          exact noResult_of_floatArith ha hb hdivides hnone
      · next hnone =>
        cases h
        exact noResult_of_not_rounded hdivides hints hnone

theorem ofInt?_zero : Double.ofInt? 0 = some .zero := by decide +kernel

/-- The division by zero is excluded by every constructor. -/
theorem NoResult.divides {op : ArithOp} {a b : Number} {k : Crash} (h : NoResult op a b k) :
    (ArithOp.divides op && b.isZero) = false := by
  cases h with
  | left _ hdivides => exact hdivides
  | @right _ x n hn =>
    have hzero : n ≠ 0 := by
      rintro rfl
      rw [ofInt?_zero] at hn
      cases hn
    simp [isZero, hzero]
  | remainder _ _ hzero => simp [hzero]

/-- A number that is not rounded: an integer beyond the binary64 numbers. -/
theorem NoResult.cases_rounded {op : ArithOp} {a b : Number} {x y : Double} {k : Crash}
    (h : NoResult op a b k) (ha : a.toDouble? = some x) (hb : b.toDouble? = some y) :
    k = .domain ∧ floatArith op x y = none := by
  cases h with
  | left hn =>
    rw [toDouble?, hn] at ha
    cases ha
  | right hn =>
    rw [toDouble?, hn] at hb
    cases hb
  | @remainder s b z hz hnan =>
    cases ha
    obtain rfl : z = y := Option.some.inj (hz.symm.trans hb)
    cases z with
    | nan => exact absurd rfl hnan
    | infinite t => exact ⟨rfl, rfl⟩
    | finite t units => exact ⟨rfl, rfl⟩

theorem NoResult.of_not_rounded {op : ArithOp} {a b : Number} {k : Crash} (h : NoResult op a b k)
    (hnone : ∀ x y, a.toDouble? = some x → b.toDouble? = some y → False) : k = .overflow := by
  cases h with
  | left | right => rfl
  | remainder hy => exact (hnone _ _ rfl hy).elim

theorem NoResult.crash {op : BinOp} {arith : ArithOp} {a b : Number} {k : Crash}
    (h : NoResult arith a b k) : op.ofArith (a.arith arith b) = .error (.crash k) := by
  have hdivides := h.divides
  unfold Number.arith
  split
  · next hzero =>
    rw [hzero] at hdivides
    cases hdivides
  · split
    · cases h
    · split
      · next ha hb =>
        obtain ⟨rfl, hnone⟩ := h.cases_rounded ha hb
        rw [hnone]
        rfl
      · next hnone =>
        rw [h.of_not_rounded hnone]
        rfl

/-- Arithmetic crashes on the numbers that have no result. -/
theorem arith_crash_iff {op : BinOp} {arith : ArithOp} {a b : Number} {k : Crash} :
    op.ofArith (a.arith arith b) = .error (.crash k) ↔ NoResult arith a b k :=
  ⟨noResult_of_crash, NoResult.crash⟩

end Number

/-! ### Evaluation -/

/-- Whether an operator looks at its right side once it knows the value of the left one. -/
def BinOp.ReadsRight (op : BinOp) (left : Value) : Prop :=
  match op with
  | and => left = .bool true
  | or => left = .bool false
  | _ => True

/-- Two values to which an operator cannot be applied, and what comes of it. -/
inductive BinOp.NoResult : BinOp → Value → Value → Crash → Prop
  | numbers {op : BinOp} {arith : ArithOp} {a b : Number} {k : Crash} : op.arith? = some arith →
      Number.NoResult arith a b k → NoResult op (.number a) (.number b) k
  | leftText {s : Text} {w : Value} : w.isWritable = false → NoResult .add (.text s) w .digits
  | rightText {v : Value} {t : Text} : v.isWritable = false → NoResult .add v (.text t) .digits

/-- Evaluation comes to an operation that has no result. -/
inductive Expr.Stalls (c : Context) : Crash → Expr → Prop
  | here {op : BinOp} {l r : Expr} {v w : Value} {k : Crash} : eval .builtin c l = .ok v →
      eval .builtin c r = .ok w → op.NoResult v w k → Stalls c k (.bin op l r)
  | text {r : Expr} {v : Value} : eval .builtin c r = .ok v → v.isWritable = false →
      Stalls c .digits (.method r "toString" [])
  | left {op : BinOp} {l r : Expr} {k : Crash} : Stalls c k l → Stalls c k (.bin op l r)
  | right {op : BinOp} {l r : Expr} {v : Value} {k : Crash} : eval .builtin c l = .ok v →
      op.ReadsRight v → Stalls c k r → Stalls c k (.bin op l r)
  | operand {op : UnOp} {e : Expr} {k : Crash} : Stalls c k e → Stalls c k (.un op e)
  | container {e : Expr} {segments : List Segment} {k : Crash} : Stalls c k e →
      Stalls c k (.sub e segments)
  | receiver {e : Expr} {name : String} {args : List Expr} {k : Crash} : Stalls c k e →
      Stalls c k (.method e name args)
  | argument {name : String} {f : Function} {before after : List Expr} {e : Expr} {vs : List Value}
      {k : Crash} : Registry.builtin.find? name = some f → evalAll .builtin c before = .ok vs →
      Stalls c k e → Stalls c k (.call name (before ++ e :: after))
  | methodArgument {r : Expr} {v : Value} {name : String} {before after : List Expr} {e : Expr}
      {vs : List Value} {k : Crash} : eval .builtin c r = .ok v → v.isNull = false →
      evalAll .builtin c before = .ok vs → Stalls c k e →
      Stalls c k (.method r name (before ++ e :: after))

theorem Outcome.Meets.ne_crash {α : Type} {P : α → Prop} {x : Outcome α} (h : x.Meets P fun _ => False)
    (k : Crash) : x ≠ .error (.crash k) := by
  rintro rfl
  exact h

theorem BinOp.calculate_number (op : BinOp) (arith : ArithOp) (a b : Number) :
    op.calculate arith (.number a) (.number b) .number .number = op.ofArith (a.arith arith b) := by
  rw [calculate, if_neg (by simp)]

theorem Value.eq_text_of_kind {v : Value} (h : v.kind = .ok .string) : ∃ s, v = .text s := by
  cases v with
  | text s => exact ⟨s, rfl⟩
  | _ => cases h

/-- Two values are joined unless one of them has no text. -/
theorem Value.join_crash_iff {v w : Value} (hv : v.Closed) (hw : w.Closed) {k : Crash} :
    ((do return .text ((← .ofDisplay v.display) ++ (← .ofDisplay w.display))) : Outcome Value) =
        .error (.crash k) ↔
      (v.isWritable = false ∨ w.isWritable = false) ∧ k = .digits := by
  have hleft := displays_of_closed hv
  have hright := displays_of_closed hw
  generalize v.display = x, w.display = y at hleft hright ⊢
  cases hleft with
  | digits hs =>
    constructor
    · intro h
      cases h
      exact ⟨.inl hs, rfl⟩
    · rintro ⟨-, rfl⟩
      rfl
  | text s hs =>
    cases hright with
    | digits ht =>
      constructor
      · intro h
        cases h
        exact ⟨.inr ht, rfl⟩
      · rintro ⟨-, rfl⟩
        rfl
    | text t ht =>
      constructor
      · nofun
      · simp [hs, ht]

theorem BinOp.apply_number {op : BinOp} {arith : ArithOp} (hop : op.arith? = some arith) (a b : Number) :
    op.apply (.number a) (.number b) = op.ofArith (a.arith arith b) := by
  rw [← calculate_number]
  cases op with
  | add | sub | mul | div | rem =>
    cases hop
    rfl
  | _ => cases hop

theorem BinOp.eq_add {op : BinOp} (h : op.arith? = some .add) : op = .add := by
  cases op with
  | add => rfl
  | _ => cases h

theorem BinOp.noResult_of_calculate {op : BinOp} {arith : ArithOp} {v w : Value}
    (hop : op.arith? = some arith) (hv : v.Closed) (hw : w.Closed) {i j : Kind} (hi : v.kind = .ok i)
    (hj : w.kind = .ok j) {k : Crash} (h : op.calculate arith v w i j = .error (.crash k)) :
    op.NoResult v w k := by
  unfold calculate at h
  split at h
  · next htext =>
    obtain ⟨rfl, hkind⟩ := htext
    obtain rfl := eq_add hop
    obtain ⟨hnot, rfl⟩ := (Value.join_crash_iff hv hw).mp h
    -- a text is written as it is, so that the other operand is the one without a text
    rcases hkind with rfl | rfl
    · obtain ⟨s, rfl⟩ := Value.eq_text_of_kind hi
      exact .leftText (hnot.resolve_left (by simp [Value.isWritable]))
    · obtain ⟨t, rfl⟩ := Value.eq_text_of_kind hj
      exact .rightText (hnot.resolve_right (by simp [Value.isWritable]))
  · split at h
    · exact .numbers hop (Number.arith_crash_iff.mp h)
    · cases h

theorem Value.isNull_of_not_writable {v : Value} (h : v.isWritable = false) : v.isNull = false := by
  cases v with
  | null => simp [isWritable] at h
  | _ => rfl

theorem BinOp.apply_add_text {v w : Value} (hv : v.isNull = false) (hw : w.isNull = false) {i j : Kind}
    (hi : v.kind = .ok i) (hj : w.kind = .ok j) (hkind : i = .string ∨ j = .string) :
    BinOp.apply .add v w =
      (do return .text ((← .ofDisplay v.display) ++ (← .ofDisplay w.display)) : Outcome Value) := by
  rw [apply.eq_3 _ _ _ (by simp) (by simp), hv, hw, Value.kindOf, Value.kindOf, hi, hj]
  change BinOp.calculate .add .add v w i j = _
  unfold calculate
  rw [if_pos ⟨rfl, hkind⟩]

theorem BinOp.NoResult.crash {op : BinOp} {v w : Value} {k : Crash} (h : op.NoResult v w k)
    (hv : v.Closed) (hw : w.Closed) : op.apply v w = .error (.crash k) := by
  obtain ⟨i, hi⟩ := Value.exists_kind_of_closed hv
  obtain ⟨j, hj⟩ := Value.exists_kind_of_closed hw
  cases h with
  | numbers hop hno =>
    rw [apply_number hop]
    exact Number.arith_crash_iff.mpr hno
  | leftText hnot =>
    cases hi
    rw [apply_add_text rfl (Value.isNull_of_not_writable hnot) rfl hj (.inl rfl)]
    exact (Value.join_crash_iff hv hw).mpr ⟨.inr hnot, rfl⟩
  | rightText hnot =>
    cases hj
    rw [apply_add_text (Value.isNull_of_not_writable hnot) rfl hi rfl (.inr rfl)]
    exact (Value.join_crash_iff hv hw).mpr ⟨.inl hnot, rfl⟩

/-- Of the operators on two closed values only arithmetic crashes, on numbers without a result, and on a text
and a value that has none. -/
theorem BinOp.apply_crash_iff {op : BinOp} {v w : Value} (hv : v.Closed) (hw : w.Closed) {k : Crash} :
    op.apply v w = .error (.crash k) ↔ op.NoResult v w k := by
  constructor
  · intro h
    obtain ⟨i, hi⟩ := Value.exists_kind_of_closed hv
    obtain ⟨j, hj⟩ := Value.exists_kind_of_closed hw
    obtain ⟨b, hb⟩ := Value.exists_equal_of_closed hv hw
    unfold apply at h
    split at h
    · rw [hb] at h
      cases h
    · rw [hb] at h
      cases h
    · split at h
      · cases h
      · rw [Value.kindOf, Value.kindOf, hi, hj] at h
        change (if op.isOrder then op.compare v w i j else _) = _ at h
        split at h
        · exact absurd h ((Value.closed_law.compare op v w i j).ne_crash k)
        · split at h
          · next arith hop => exact noResult_of_calculate hop hv hw hi hj h
          · cases h
  · exact fun h => h.crash hv hw

theorem BinOp.NoResult.exists_arith {op : BinOp} {v w : Value} {k : Crash} (h : op.NoResult v w k) :
    ∃ arith, op.arith? = some arith := by
  cases h with
  | numbers hop => exact ⟨_, hop⟩
  | leftText | rightText => exact ⟨.add, rfl⟩

/-- A closed value has a text unless a number in it has none. -/
theorem Value.text_crash_iff {v : Value} (hv : v.Closed) {k : Crash} :
    (.text <$> .ofDisplay v.display : Outcome Value) = .error (.crash k) ↔
      v.isWritable = false ∧ k = .digits := by
  have hdisplays := displays_of_closed hv
  generalize v.display = shown at hdisplays ⊢
  cases hdisplays with
  | text s hs =>
    constructor
    · nofun
    · simp [hs]
  | digits hs =>
    constructor
    · intro h
      cases h
      exact ⟨hs, rfl⟩
    · rintro ⟨-, rfl⟩
      rfl

theorem Method.find?_toString : Method.find? "toString" = some Method.ofDisplay := rfl

/-- Every value but null has the method that gives its text. It takes no arguments. -/
theorem Method.invoke_toString {r : Value} (hr : r.Closed) (hnull : r.isNull = false) {args : List Value} :
    Method.invoke r "toString" args =
      if args = [] then .text <$> .ofDisplay r.display
      else .fail (.arity "toString()" "0" args.length) := by
  obtain ⟨k, hk⟩ := Value.exists_kind_of_closed hr
  have hkind : ofDisplay.receivers.contains k = true := by
    cases r with
    | null => cases hnull
    | bool | number | text | list | map =>
      cases hk
      rfl
    | tuple | foreign => simp [Value.Closed] at hr
  rw [invoke, hnull, find?_toString]
  change Method.call ofDisplay r args = _
  rw [call, Value.kindOf, hk]
  change (if !ofDisplay.receivers.contains k then _ else _) = _
  rw [hkind]
  cases args with
  | nil => rfl
  | cons v vs => rfl

/-- Of the methods only the one that gives the text of its receiver crashes. -/
theorem Method.invoke_crash_iff {r : Value} {name : String} {args : List Value} (hr : r.Closed)
    (hargs : ∀ v ∈ args, v.Closed) {k : Crash} :
    Method.invoke r name args = .error (.crash k) ↔
      name = "toString" ∧ args = [] ∧ r.isWritable = false ∧ k = .digits := by
  constructor
  · intro h
    obtain rfl : name = "toString" := Decidable.byContradiction fun hname =>
      (Value.closed_law.invokeOther hr hname hargs).ne_crash k h
    cases hnull : r.isNull with
    | true =>
      rw [invoke, hnull] at h
      cases h
    | false =>
      rw [invoke_toString hr hnull] at h
      split at h
      · next hargs => exact ⟨rfl, hargs, (Value.text_crash_iff hr).mp h⟩
      · cases h
  · rintro ⟨rfl, rfl, hnot, rfl⟩
    rw [invoke_toString hr (Value.isNull_of_not_writable hnot), if_pos rfl]
    exact (Value.text_crash_iff hr).mpr ⟨hnot, rfl⟩

section

variable {c : Context} {k : Crash}

theorem eq_nil_of_evalAll {es : List Expr} (h : evalAll .builtin c es = .ok []) : es = [] := by
  cases es with
  | nil => rfl
  | cons e es =>
    rw [evalAll] at h
    obtain ⟨v, -, h⟩ := bind_eq_ok.mp h
    obtain ⟨vs, -, h⟩ := bind_eq_ok.mp h
    cases h

theorem asBoolean_eq_ok {op : String} {v : Value} {b : Bool} (h : asBoolean op v = .ok b) :
    v = .bool b := by
  cases v with
  | bool a =>
    cases h
    rfl
  | _ => cases h

/-- Reading a boolean off a closed value does not crash. -/
theorem crash_of_boolean {α : Type} {x : Outcome Value} {op : String} {f : Bool → Outcome α}
    (hx : ∀ v, x = .ok v → v.Closed)
    (h : (x >>= fun v => asBoolean op v >>= f) = .error (.crash k)) :
    x = .error (.crash k) ∨ ∃ b, x = .ok (.bool b) ∧ f b = .error (.crash k) := by
  rcases bind_eq_error.mp h with h | ⟨v, hv, h⟩
  · exact .inl h
  · rcases bind_eq_error.mp h with h | ⟨b, hb, h⟩
    · exact absurd h ((Value.closed_law.asBoolean (hx v hv) op).ne_crash k)
    · cases asBoolean_eq_ok hb
      exact .inr ⟨b, hv, h⟩

theorem eval_calculation {functions : Registry} {op : BinOp} {arith : ArithOp} {e f : Expr} {v w : Value}
    (hop : op.arith? = some arith) (he : eval functions c e = .ok v) (hf : eval functions c f = .ok w) :
    eval functions c (.bin op e f) = op.apply v w := by
  apply eval_bin _ _ he hf
  · rintro rfl
    cases hop
  · rintro rfl
    cases hop

theorem eval_arith {functions : Registry} {op : BinOp} {arith : ArithOp} {e f : Expr} {m n : Number}
    (hop : op.arith? = some arith) (he : eval functions c e = .ok (.number m))
    (hf : eval functions c f = .ok (.number n)) :
    eval functions c (.bin op e f) = op.ofArith (m.arith arith n) := by
  rw [eval_calculation hop he hf, BinOp.apply_number hop]

/-- An operator that looks at its right side crashes if evaluation of that side does. -/
theorem eval_right_crash {op : BinOp} {l r : Expr} {v : Value} (hl : eval .builtin c l = .ok v)
    (hreads : op.ReadsRight v) (hr : eval .builtin c r = .error (.crash k)) :
    eval .builtin c (.bin op l r) = .error (.crash k) := by
  cases op with
  | and | or =>
    cases hreads
    simp only [eval, hl, hr]
    rfl
  | _ =>
    simp only [eval, hl, hr]
    rfl

/-! Closed trees in a context of closed values crash there and nowhere else. -/

variable (hc : ∀ name, (c.root name).Closed)

include hc

theorem Expr.closed_of_eval {e : Expr} (he : e.LiteralsIn Value.Closed) {v : Value}
    (h : eval .builtin c e = .ok v) : v.Closed := by
  have hmeets := Value.closed_law.eval hc he
  rwa [h] at hmeets

theorem Expr.closed_of_evalAll {es : List Expr} (he : Expr.AllLiteralsIn Value.Closed es)
    {vs : List Value} (h : evalAll .builtin c es = .ok vs) : ∀ v ∈ vs, v.Closed := by
  have hmeets := Value.closed_law.evalAll hc he
  rwa [h] at hmeets

theorem Expr.Stalls.crash {e : Expr} (h : e.Stalls c k) (he : e.LiteralsIn Value.Closed) :
    eval .builtin c e = .error (.crash k) := by
  induction h with
  | here hl hr hno =>
    rw [LiteralsIn] at he
    obtain ⟨arith, hop⟩ := hno.exists_arith
    rw [eval_calculation hop hl hr]
    exact hno.crash (closed_of_eval hc he.1 hl) (closed_of_eval hc he.2 hr)
  | text hr hnot =>
    rw [LiteralsIn] at he
    rw [eval, hr]
    change (if _ then _ else Method.invoke _ "toString" []) = _
    rw [Value.isNull_of_not_writable hnot]
    have hclosed := closed_of_eval hc he.1 hr
    exact (Method.invoke_crash_iff hclosed (by simp)).mpr ⟨rfl, rfl, hnot, rfl⟩
  | @left op l r k _ ih =>
    rw [LiteralsIn] at he
    cases op <;> simp only [eval, ih he.1] <;> rfl
  | right hl hreads _ ih =>
    rw [LiteralsIn] at he
    exact eval_right_crash hl hreads (ih he.2)
  | operand _ ih | container _ ih =>
    rw [LiteralsIn] at he
    rw [eval, ih he]
    rfl
  | receiver _ ih =>
    rw [LiteralsIn] at he
    rw [eval, ih he.1]
    rfl
  | argument hf hbefore _ ih =>
    rw [LiteralsIn, allLiteralsIn_iff] at he
    simp only [eval, hf, evalAll_of_error hbefore (ih (he _ (by simp)))]
    rfl
  | methodArgument hr hnull hbefore _ ih =>
    rw [LiteralsIn, allLiteralsIn_iff] at he
    simp only [eval, hr, evalAll_of_error hbefore (ih (he.2 _ (by simp)))]
    change (if _ then _ else _) = _
    rw [hnull]
    rfl

end

mutual

theorem Expr.stalls_of_crash {c : Context} {k : Crash} (hc : ∀ name, (c.root name).Closed) :
    ∀ {e : Expr}, e.LiteralsIn Value.Closed → eval .builtin c e = .error (.crash k) → e.Stalls c k
  | .lit _, _, h | .path _ _, _, h => by
    rw [eval] at h
    cases h
  | .sub receiver segments, he, h => by
    rw [Expr.LiteralsIn] at he
    rw [eval] at h
    rcases bind_eq_error.mp h with h | ⟨v, -, h⟩
    · exact .container (Expr.stalls_of_crash hc he h)
    · cases h
  | .bin op left right, he, h => by
    rw [Expr.LiteralsIn] at he
    cases op with
    | and =>
      rw [eval] at h
      rcases crash_of_boolean (fun _ => Expr.closed_of_eval hc he.1) h with h | ⟨b, hv, h⟩
      · exact .left (Expr.stalls_of_crash hc he.1 h)
      · cases b with
        | false => cases h
        | true =>
          rcases crash_of_boolean (fun _ => Expr.closed_of_eval hc he.2) h with h | ⟨b, -, h⟩
          · exact .right hv rfl (Expr.stalls_of_crash hc he.2 h)
          · cases h
    | or =>
      rw [eval] at h
      rcases crash_of_boolean (fun _ => Expr.closed_of_eval hc he.1) h with h | ⟨b, hv, h⟩
      · exact .left (Expr.stalls_of_crash hc he.1 h)
      · cases b with
        | true => cases h
        | false =>
          rcases crash_of_boolean (fun _ => Expr.closed_of_eval hc he.2) h with h | ⟨b, -, h⟩
          · exact .right hv rfl (Expr.stalls_of_crash hc he.2 h)
          · cases h
    | _ =>
      simp only [eval] at h
      rcases bind_eq_error.mp h with h | ⟨v, hv, h⟩
      · exact .left (Expr.stalls_of_crash hc he.1 h)
      · rcases bind_eq_error.mp h with h | ⟨w, hw, h⟩
        · exact .right hv trivial (Expr.stalls_of_crash hc he.2 h)
        · have hleft := Expr.closed_of_eval hc he.1 hv
          have hright := Expr.closed_of_eval hc he.2 hw
          exact .here hv hw ((BinOp.apply_crash_iff hleft hright).mp h)
  | .un op operand, he, h => by
    rw [Expr.LiteralsIn] at he
    rw [eval] at h
    rcases bind_eq_error.mp h with h | ⟨v, hv, h⟩
    · exact .operand (Expr.stalls_of_crash hc he h)
    · exact absurd h ((Value.closed_law.unary op (Expr.closed_of_eval hc he hv)).ne_crash k)
  | .call name args, he, h => by
    rw [Expr.LiteralsIn] at he
    rw [eval] at h
    split at h
    · cases h
    · next f hf =>
      rcases bind_eq_error.mp h with h | ⟨vs, hvs, h⟩
      · obtain ⟨before, e, after, ws, rfl, hws, hstalls⟩ := Expr.stalls_of_crashAll hc he h
        exact .argument hf hws hstalls
      · have hargs := Expr.closed_of_evalAll hc he hvs
        exact absurd h ((Value.closed_law.call (List.mem_of_find?_eq_some hf) hargs).ne_crash k)
  | .method receiver name args, he, h => by
    rw [Expr.LiteralsIn] at he
    rw [eval] at h
    rcases bind_eq_error.mp h with h | ⟨r, hr, h⟩
    · exact .receiver (Expr.stalls_of_crash hc he.1 h)
    · split at h
      · cases h
      · next hnull =>
        rcases bind_eq_error.mp h with h | ⟨vs, hvs, h⟩
        · obtain ⟨before, e, after, ws, rfl, hws, hstalls⟩ := Expr.stalls_of_crashAll hc he.2 h
          exact .methodArgument hr (by simpa using hnull) hws hstalls
        · have hargs := Expr.closed_of_evalAll hc he.2 hvs
          have hreceiver := Expr.closed_of_eval hc he.1 hr
          obtain ⟨rfl, rfl, hnot, rfl⟩ := (Method.invoke_crash_iff hreceiver hargs).mp h
          obtain rfl := eq_nil_of_evalAll hvs
          exact .text hr hnot
  | .foreign _, he, _ => by
    simp [Expr.LiteralsIn] at he

theorem Expr.stalls_of_crashAll {c : Context} {k : Crash} (hc : ∀ name, (c.root name).Closed) :
    ∀ {es : List Expr}, Expr.AllLiteralsIn Value.Closed es →
      evalAll .builtin c es = .error (.crash k) →
      ∃ before e after vs, es = before ++ e :: after ∧ evalAll .builtin c before = .ok vs ∧ e.Stalls c k
  | [], _, h => by
    rw [evalAll] at h
    cases h
  | e :: es, he, h => by
    rw [Expr.AllLiteralsIn] at he
    rw [evalAll] at h
    rcases bind_eq_error.mp h with h | ⟨v, hv, h⟩
    · exact ⟨[], e, es, [], rfl, by rw [evalAll], Expr.stalls_of_crash hc he.1 h⟩
    · rcases bind_eq_error.mp h with h | ⟨vs, -, h⟩
      · obtain ⟨before, d, after, ws, rfl, hws, hstalls⟩ := Expr.stalls_of_crashAll hc he.2 h
        refine ⟨e :: before, d, after, v :: ws, rfl, ?_, hstalls⟩
        rw [evalAll, hv, hws]
        rfl
      · cases h

end

/-- Evaluation of closed values crashes exactly if it comes to an operation without a result. -/
theorem eval_crash_iff {c : Context} {k : Crash} (hc : ∀ name, (c.root name).Closed) {e : Expr}
    (he : e.LiteralsIn Value.Closed) :
    eval .builtin c e = .error (.crash k) ↔ e.Stalls c k :=
  ⟨Expr.stalls_of_crash hc he, fun h => h.crash hc he⟩

end Rulebook
