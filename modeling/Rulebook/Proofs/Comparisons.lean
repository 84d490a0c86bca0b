import Mathlib.Data.List.Lex
import Mathlib.Data.Prod.Lex
import Mathlib.Order.Compare
import Rulebook.Proofs.Escapes
import Rulebook.Proofs.Evaluation
import Rulebook.Proofs.NullFree

set_option autoImplicit false

/-!
The six comparisons belong to one order. Texts are ordered like the lists of their code points, and numbers by
their places, whatever form they are written in; both are linear orders, which equality of values agrees with.
Between any other values nothing but equality can be asked, and null cannot be asked for an order at all.
-/

namespace Rulebook

/-! ### Linear orders -/

/-- The six comparisons, by the order of what is compared. -/
structure Answers (outcome : BinOp → Outcome Value) (order : Ordering) : Prop where
  lt : outcome .lt = .ok (.bool (order == .lt))
  eq : outcome .eq = .ok (.bool (order == .eq))
  gt : outcome .gt = .ok (.bool (order == .gt))
  le : outcome .le = .ok (.bool (order != .gt))
  ge : outcome .ge = .ok (.bool (order != .lt))
  ne : outcome .ne = .ok (.bool (order != .eq))

/-- Tests that decide a linear order give the answers of that order. -/
theorem Answers.of_linear {κ : Type} [LinearOrder κ] {x y : κ} {order : Ordering}
    {outcome : BinOp → Outcome Value} {below above same atMost atLeast : Bool} (h : order.Compares x y)
    (hbelow : below = true ↔ x < y) (habove : above = true ↔ y < x) (hsame : same = true ↔ x = y)
    (hatMost : atMost = true ↔ x ≤ y) (hatLeast : atLeast = true ↔ y ≤ x)
    (hlt : outcome .lt = .ok (.bool below)) (heq : outcome .eq = .ok (.bool same))
    (hgt : outcome .gt = .ok (.bool above)) (hle : outcome .le = .ok (.bool atMost))
    (hge : outcome .ge = .ok (.bool atLeast)) (hne : outcome .ne = .ok (.bool !same)) :
    Answers outcome order := by
  rw [Bool.eq_iff_iff.mpr (hbelow.trans decide_eq_true_iff.symm)] at hlt
  rw [Bool.eq_iff_iff.mpr (habove.trans decide_eq_true_iff.symm)] at hgt
  rw [Bool.eq_iff_iff.mpr (hsame.trans decide_eq_true_iff.symm)] at heq hne
  rw [Bool.eq_iff_iff.mpr (hatMost.trans decide_eq_true_iff.symm)] at hle
  rw [Bool.eq_iff_iff.mpr (hatLeast.trans decide_eq_true_iff.symm)] at hge
  cases order with
  | lt =>
    have hxy : x < y := h
    constructor <;> simp [*, hxy.ne, hxy.le, hxy.not_gt]
  | eq =>
    obtain rfl : x = y := h
    constructor <;> simp [*]
  | gt =>
    have hxy : y < x := h
    constructor <;> simp [*, hxy.ne', hxy.le, hxy.not_gt]

namespace Number

variable {a b : Number} {x y : Int × Int}

theorem exists_rank (h : a.isNaN = false) : ∃ x, a.rank? = some x := by
  rw [isNaN, Option.isNone_eq_false_iff] at h
  exact Option.isSome_iff_exists.mp h

theorem lt_iff (ha : a.rank? = some x) (hb : b.rank? = some y) : a.lt b = true ↔ toLex x < toLex y := by
  rw [lt, ha, hb]
  simp [Prod.Lex.toLex_lt_toLex]

theorem eq_iff_rank (ha : a.rank? = some x) (hb : b.rank? = some y) :
    a.eq b = true ↔ toLex x = toLex y := by
  rw [eq, ha, hb]
  simp

theorem le_iff (ha : a.rank? = some x) (hb : b.rank? = some y) : a.le b = true ↔ toLex x ≤ toLex y := by
  rw [le, Bool.or_eq_true, lt_iff ha hb, eq_iff_rank ha hb, le_iff_lt_or_eq]

end Number

theorem CodePoint.number_injective : Function.Injective CodePoint.number :=
  Function.LeftInverse.injective CodePoint.ofNat_number

namespace Text

variable {s t : Text}

theorem precedes_iff : precedes s t = true ↔ s.map CodePoint.number < t.map CodePoint.number := by
  induction s generalizing t with
  | nil => cases t <;> simp [precedes]
  | cons p s ih =>
    cases t with
    | nil => simp [precedes]
    | cons q t =>
      rw [List.map_cons, List.map_cons, List.cons_lt_cons_iff, ← ih, precedes]
      simp [CodePoint.number_injective.eq_iff]

theorem not_precedes_iff :
    (!precedes t s) = true ↔ s.map CodePoint.number ≤ t.map CodePoint.number := by
  rw [Bool.not_eq_true', ← Bool.not_eq_true, precedes_iff, not_lt]

theorem beq_iff : (s == t) = true ↔ s.map CodePoint.number = t.map CodePoint.number := by
  rw [beq_iff_eq]
  exact (List.map_injective_iff.mpr CodePoint.number_injective).eq_iff.symm

theorem precedes_append (s : Text) {r : Text} (h : r ≠ []) : precedes s (s ++ r) = true := by
  induction s with
  | nil =>
    cases r with
    | nil => exact absurd rfl h
    | cons p r => rfl
  | cons p s ih => simp [precedes, ih]

end Text

namespace Value

/-- Texts only, or numbers only, none of which is the result of an undefined operation. -/
def OneOrder (vs : List Value) : Prop :=
  (∀ v ∈ vs, ∃ s, v = .text s) ∨ ∀ v ∈ vs, ∃ n : Number, n.isNaN = false ∧ v = .number n

/-- The place of a number in the order. -/
def place : Value → Int × Int
  | number n => n.rank?.getD (0, 0)
  | _ => (0, 0)

theorem answers_number {a b : Number} {x y : Int × Int} (ha : a.rank? = some x) (hb : b.rank? = some y)
    {order : Ordering} (h : order.Compares (toLex x) (toLex y)) :
    Answers (fun op => op.apply (.number a) (.number b)) order :=
  Answers.of_linear h (Number.lt_iff ha hb) (Number.lt_iff hb ha) (Number.eq_iff_rank ha hb)
    (Number.le_iff ha hb) (Number.le_iff hb ha) rfl rfl rfl rfl rfl rfl

theorem answers_text {s t : Text} {order : Ordering}
    (h : order.Compares (s.map CodePoint.number) (t.map CodePoint.number)) :
    Answers (fun op => op.apply (.text s) (.text t)) order :=
  Answers.of_linear h Text.precedes_iff Text.precedes_iff Text.beq_iff Text.not_precedes_iff
    Text.not_precedes_iff rfl rfl rfl rfl rfl rfl

/-- Values of one order have places in a linear order, by which they are compared. -/
theorem OneOrder.exists_places {vs : List Value} (h : OneOrder vs) :
    ∃ (κ : Type) (_ : LinearOrder κ) (place : Value → κ), ∀ v ∈ vs, ∀ w ∈ vs, ∀ order : Ordering,
      order.Compares (place v) (place w) → Answers (fun op => op.apply v w) order := by
  rcases h with htexts | hnumbers
  · refine ⟨List Nat, inferInstance, fun v => (Method.textOf v).map CodePoint.number, ?_⟩
    intro v hv w hw order hplaces
    obtain ⟨s, rfl⟩ := htexts v hv
    obtain ⟨t, rfl⟩ := htexts w hw
    exact answers_text hplaces
  · refine ⟨Int ×ₗ Int, inferInstance, fun v => toLex v.place, ?_⟩
    intro v hv w hw order hplaces
    obtain ⟨a, ha, rfl⟩ := hnumbers v hv
    obtain ⟨b, hb, rfl⟩ := hnumbers w hw
    obtain ⟨x, hx⟩ := Number.exists_rank ha
    obtain ⟨y, hy⟩ := Number.exists_rank hb
    apply answers_number hx hy
    simpa [place, hx, hy] using hplaces

end Value

/-! ### Values without an order -/

namespace BinOp

variable {op : BinOp} {v w : Value} {k l : Kind}

/-- The operators that ask for an order. -/
def orders : List BinOp := [.lt, .le, .gt, .ge]

theorem isOrder_of_mem (h : op ∈ orders) : op.isOrder = true := by
  simp only [orders, List.mem_cons, List.not_mem_nil, or_false] at h
  rcases h with rfl | rfl | rfl | rfl <;> rfl

theorem apply_of_isOrder (h : op.isOrder = true) (hv : v.isNull = false) (hw : w.isNull = false)
    (hk : v.kind = .ok k) (hl : w.kind = .ok l) : op.apply v w = op.compare v w k l := by
  have happly : op.apply v w = if v.isNull || w.isNull then .fail (.nullAccess op.symbol)
      else v.kindOf >>= fun k => w.kindOf >>= fun l => op.compare v w k l := by
    cases op with
    | ge | le | gt | lt => rfl
    | _ => cases h
  rw [happly, hv, hw, Value.kindOf, Value.kindOf, hk, hl]
  rfl

theorem apply_of_null (h : op.isOrder = true) (hnull : v.isNull = true ∨ w.isNull = true) :
    op.apply v w = .fail (.nullAccess op.symbol) := by
  have hor : (v.isNull || w.isNull) = true := by rwa [Bool.or_eq_true]
  cases op with
  | ge | le | gt | lt => exact if_pos hor
  | _ => cases h

theorem compare_of_unlike (hnumbers : ∀ a b, ¬(v = .number a ∧ w = .number b))
    (htexts : ∀ s t, ¬(v = .text s ∧ w = .text t)) :
    op.compare v w k l = .mismatch (.comparison op.symbol k l) := by
  unfold compare
  split
  · exact absurd ⟨rfl, rfl⟩ (hnumbers _ _)
  · exact absurd ⟨rfl, rfl⟩ (htexts _ _)
  · rfl

end BinOp

/-! ### Trees -/

section

variable (functions : Registry) (c : Context)

/-- The comparison of two trees comes to true. -/
def Holds (op : BinOp) (e f : Expr) : Prop := eval functions c (.bin op e f) = .ok (.bool true)

/-- All comparisons of two trees answer as one order of the two says. -/
def Ordered (e f : Expr) (order : Ordering) : Prop :=
  Answers (fun op => eval functions c (.bin op e f)) order

/-- Two trees are compared by places in a linear order. -/
def ComparedBy {κ : Type} [LinearOrder κ] (e f : Expr) (x y : κ) : Prop :=
  ∀ order : Ordering, order.Compares x y → Ordered functions c e f order

end

section

variable {functions : Registry} {c : Context} {e f g : Expr} {u v w : Value}

theorem Answers.ordered {order : Ordering} (h : Answers (fun op => op.apply v w) order)
    (he : eval functions c e = .ok v) (hf : eval functions c f = .ok w) : Ordered functions c e f order := by
  have hbin : ∀ op, op ≠ .and → op ≠ .or → eval functions c (.bin op e f) = op.apply v w :=
    fun op hand hor => eval_bin hand hor he hf
  constructor
  · exact (hbin .lt (by decide) (by decide)).trans h.lt
  · exact (hbin .eq (by decide) (by decide)).trans h.eq
  · exact (hbin .gt (by decide) (by decide)).trans h.gt
  · exact (hbin .le (by decide) (by decide)).trans h.le
  · exact (hbin .ge (by decide) (by decide)).trans h.ge
  · exact (hbin .ne (by decide) (by decide)).trans h.ne

section

variable {κ : Type} [LinearOrder κ] {x y : κ}

theorem exists_compares (x y : κ) : ∃ order : Ordering, order.Compares x y := ⟨_, cmp_compares x y⟩

theorem ComparedBy.holds_lt_iff (h : ComparedBy functions c e f x y) :
    Holds functions c .lt e f ↔ x < y := by
  obtain ⟨order, hplaces⟩ := exists_compares x y
  rw [Holds, (h order hplaces).lt, ← hplaces.eq_lt]
  simp

theorem ComparedBy.holds_eq_iff (h : ComparedBy functions c e f x y) :
    Holds functions c .eq e f ↔ x = y := by
  obtain ⟨order, hplaces⟩ := exists_compares x y
  rw [Holds, (h order hplaces).eq, ← hplaces.eq_eq]
  simp

theorem ComparedBy.exists_order (h : ComparedBy functions c e f x y)
    (hswap : ComparedBy functions c f e y x) :
    ∃ order : Ordering, Ordered functions c e f order ∧ Ordered functions c f e order.swap := by
  obtain ⟨order, hplaces⟩ := exists_compares x y
  exact ⟨order, h order hplaces, hswap _ (Ordering.compares_swap.mpr hplaces)⟩

end

theorem comparedBy_text {s t : Text} (he : eval functions c e = .ok (.text s))
    (hf : eval functions c f = .ok (.text t)) :
    ComparedBy functions c e f (s.map CodePoint.number) (t.map CodePoint.number) :=
  fun _ hplaces => (Value.answers_text hplaces).ordered he hf

theorem BinOp.ne_of_mem_orders {op : BinOp} (h : op ∈ orders) : op ≠ .and ∧ op ≠ .or := by
  constructor
  · rintro rfl
    revert h
    decide
  · rintro rfl
    revert h
    decide

theorem eval_order_of_null {op : BinOp} (hop : op ∈ BinOp.orders) (he : eval functions c e = .ok v)
    (hf : eval functions c f = .ok w) (hnull : v = .null ∨ w = .null) :
    eval functions c (.bin op e f) = .fail (.nullAccess op.symbol) := by
  obtain ⟨hand, hor⟩ := BinOp.ne_of_mem_orders hop
  rw [eval_bin hand hor he hf]
  apply BinOp.apply_of_null (BinOp.isOrder_of_mem hop)
  rcases hnull with rfl | rfl
  · exact .inl rfl
  · exact .inr rfl

theorem eval_order_of_unlike {op : BinOp} {k l : Kind} (hop : op ∈ BinOp.orders)
    (he : eval functions c e = .ok v) (hf : eval functions c f = .ok w) (hv : v ≠ .null) (hw : w ≠ .null)
    (hk : v.kind = .ok k) (hl : w.kind = .ok l) (hnumbers : ∀ a b, ¬(v = .number a ∧ w = .number b))
    (htexts : ∀ s t, ¬(v = .text s ∧ w = .text t)) :
    eval functions c (.bin op e f) = .mismatch (.comparison op.symbol k l) := by
  obtain ⟨hand, hor⟩ := BinOp.ne_of_mem_orders hop
  have hv' := Value.isNull_eq_false hv
  have hw' := Value.isNull_eq_false hw
  rw [eval_bin hand hor he hf, BinOp.apply_of_isOrder (BinOp.isOrder_of_mem hop) hv' hw' hk hl]
  exact BinOp.compare_of_unlike hnumbers htexts

theorem eval_equality (he : eval functions c e = .ok v) (hf : eval functions c f = .ok w) (hv : v.Closed)
    (hw : w.Closed) :
    ∃ b, eval functions c (.bin .eq e f) = .ok (.bool b) ∧
      eval functions c (.bin .ne e f) = .ok (.bool !b) := by
  obtain ⟨b, hb⟩ := Value.exists_equal_of_closed hv hw
  refine ⟨b, ?_, ?_⟩
  · rw [eval_bin (by decide) (by decide) he hf, BinOp.apply, hb]
    rfl
  · rw [eval_bin (by decide) (by decide) he hf, BinOp.apply, hb]
    rfl

theorem holds_lt_text {s t : Text} (he : eval functions c e = .ok (.text s))
    (hf : eval functions c f = .ok (.text t)) :
    (Holds functions c .lt e f ↔ s.map CodePoint.number < t.map CodePoint.number) ∧
      (s <+: t → s ≠ t → Holds functions c .lt e f) := by
  have hiff := (comparedBy_text he hf).holds_lt_iff
  refine ⟨hiff, ?_⟩
  rintro ⟨r, rfl⟩ hne
  have hr : r ≠ [] := by
    rintro rfl
    exact hne (List.append_nil s).symm
  exact hiff.mpr (Text.precedes_iff.mp (Text.precedes_append s hr))

/-- The order of texts, and that of numbers, is total; the truth of a comparison is passed on along it. -/
theorem Value.OneOrder.ordered (h : OneOrder [u, v, w]) (he : eval functions c e = .ok u)
    (hf : eval functions c f = .ok v) (hg : eval functions c g = .ok w) :
    (∃ order : Ordering, Ordered functions c e f order ∧ Ordered functions c f e order.swap) ∧
      (Holds functions c .lt e f → Holds functions c .lt f g → Holds functions c .lt e g) ∧
      (Holds functions c .eq e f →
        (Holds functions c .lt e g ↔ Holds functions c .lt f g) ∧
          (Holds functions c .lt g e ↔ Holds functions c .lt g f)) := by
  obtain ⟨κ, _, place, hplace⟩ := h.exists_places
  have hu : u ∈ [u, v, w] := by simp
  have hv : v ∈ [u, v, w] := by simp
  have hw : w ∈ [u, v, w] := by simp
  have hef : ComparedBy functions c e f (place u) (place v) := fun o ho =>
    (hplace u hu v hv o ho).ordered he hf
  have hfe : ComparedBy functions c f e (place v) (place u) := fun o ho =>
    (hplace v hv u hu o ho).ordered hf he
  have hfg : ComparedBy functions c f g (place v) (place w) := fun o ho =>
    (hplace v hv w hw o ho).ordered hf hg
  have hgf : ComparedBy functions c g f (place w) (place v) := fun o ho =>
    (hplace w hw v hv o ho).ordered hg hf
  have heg : ComparedBy functions c e g (place u) (place w) := fun o ho =>
    (hplace u hu w hw o ho).ordered he hg
  have hge : ComparedBy functions c g e (place w) (place u) := fun o ho =>
    (hplace w hw u hu o ho).ordered hg he
  refine ⟨hef.exists_order hfe, ?_, ?_⟩
  · rw [hef.holds_lt_iff, hfg.holds_lt_iff, heg.holds_lt_iff]
    exact lt_trans
  · rw [hef.holds_eq_iff]
    intro hsame
    rw [heg.holds_lt_iff, hfg.holds_lt_iff, hge.holds_lt_iff, hgf.holds_lt_iff, hsame]
    exact ⟨Iff.rfl, Iff.rfl⟩

end

/-- Between texts, and between numbers other than the result of an undefined operation, exactly one of less, equal
and greater holds; the weak comparisons and inequality are the negations of these, and with the operands swapped
less and greater change places. Less is transitive, and equal operands can stand for each other. Texts are ordered
by their code points, after all their beginnings. Asking for an order with null is an access to null; between other
values of the language that are neither two numbers nor two texts it is a mismatch from either side. Equality never
fails. -/
theorem comparisons_consistent (functions : Registry) (c : Context) {e f g : Expr} {u v w : Value}
    (he : eval functions c e = .ok u) (hf : eval functions c f = .ok v)
    (hg : eval functions c g = .ok w) :
    (Value.OneOrder [u, v, w] →
      (∃ order : Ordering, Ordered functions c e f order ∧ Ordered functions c f e order.swap) ∧
        (Holds functions c .lt e f → Holds functions c .lt f g → Holds functions c .lt e g) ∧
        (Holds functions c .eq e f →
          (Holds functions c .lt e g ↔ Holds functions c .lt f g) ∧
            (Holds functions c .lt g e ↔ Holds functions c .lt g f))) ∧
      (∀ s t, u = .text s → v = .text t →
        (Holds functions c .lt e f ↔ s.map CodePoint.number < t.map CodePoint.number) ∧
          (s <+: t → s ≠ t → Holds functions c .lt e f)) ∧
      (u = .null ∨ v = .null → ∀ op ∈ BinOp.orders,
        eval functions c (.bin op e f) = .fail (.nullAccess op.symbol)) ∧
      (u.Closed → v.Closed →
        (u ≠ .null → v ≠ .null → (∀ a b, ¬(u = .number a ∧ v = .number b)) →
          (∀ s t, ¬(u = .text s ∧ v = .text t)) →
          ∃ k l, u.kind = .ok k ∧ v.kind = .ok l ∧ ∀ op ∈ BinOp.orders,
            eval functions c (.bin op e f) = .mismatch (.comparison op.symbol k l) ∧
              eval functions c (.bin op f e) = .mismatch (.comparison op.symbol l k)) ∧
        ∃ b, eval functions c (.bin .eq e f) = .ok (.bool b) ∧
          eval functions c (.bin .ne e f) = .ok (.bool !b)) := by
  refine ⟨fun h => h.ordered he hf hg, ?_, ?_, ?_⟩
  · rintro s t rfl rfl
    exact holds_lt_text he hf
  · intro hnull op hop
    exact eval_order_of_null hop he hf hnull
  · intro hu hv
    refine ⟨?_, eval_equality he hf hu hv⟩
    intro hu' hv' hnumbers htexts
    obtain ⟨k, hk⟩ := Value.exists_kind_of_closed hu
    obtain ⟨l, hl⟩ := Value.exists_kind_of_closed hv
    refine ⟨k, l, hk, hl, fun op hop => ⟨?_, ?_⟩⟩
    · exact eval_order_of_unlike hop he hf hu' hv' hk hl hnumbers htexts
    · have hnumbers' : ∀ a b, ¬(v = .number a ∧ u = .number b) := fun a b h => hnumbers b a h.symm
      have htexts' : ∀ s t, ¬(v = .text s ∧ u = .text t) := fun s t h => htexts t s h.symm
      exact eval_order_of_unlike hop hf he hv' hu' hl hk hnumbers' htexts'

/-- The integer behind the last binary number before which there is no gap. -/
def behindBinary : Int := 9007199254740993

theorem comparisons_consistent_behindBinary :
    let binary : Number := .float (.finite false (9007199254740992 * Double.unitsPerOne))
    let e : Expr := .lit (.number binary)
    let f : Expr := .lit (.int 9007199254740992)
    let g : Expr := .lit (.int behindBinary)
    Value.OneOrder [.number binary, .int 9007199254740992, .int behindBinary] ∧
      Holds .builtin ofAda .eq e f ∧ Holds .builtin ofAda .lt f g ∧ Holds .builtin ofAda .lt e g := by
  intro binary e f g
  have horder : Value.OneOrder [.number binary, .int 9007199254740992, .int behindBinary] := by
    refine .inr ?_
    simp only [List.forall_mem_cons]
    exact ⟨⟨_, rfl, rfl⟩, ⟨_, rfl, rfl⟩, ⟨_, rfl, rfl⟩, by simp⟩
  have hsame : Holds .builtin ofAda .eq e f := by with_unfolding_all rfl
  have hbelow : Holds .builtin ofAda .lt f g := by with_unfolding_all rfl
  have htrees := (comparisons_consistent .builtin ofAda (e := e) (f := f) (g := g) rfl rfl rfl).1 horder
  exact ⟨horder, hsame, hbelow, (htrees.2.2 hsame).1.mpr hbelow⟩

end Rulebook
