import Mathlib.Data.Rat.Floor
import Rulebook.Proofs.Crashes

set_option autoImplicit false

/-!
Division of integers. The quotient is the exact ratio with its decimals cut off, and the remainder is what the
dividend has left: it is smaller than the divisor and has the sign of the dividend. A minus on either operand
goes over to the quotient, and the remainder does not see one on the divisor.
-/

namespace Rulebook

/-! ### Quotient and remainder -/

/-- A ratio with its decimals cut off. -/
def truncate (x : ℚ) : Int := if 0 ≤ x then ⌊x⌋ else ⌈x⌉

/-- What is cut off is less than one and does not lie beyond zero. -/
theorem truncate_intCast_add {n : Int} {t : ℚ} (hsmall : |t| < 1) (hnonneg : 0 ≤ n + t → 0 ≤ t)
    (hnonpos : n + t ≤ 0 → t ≤ 0) : truncate (n + t) = n := by
  obtain ⟨hlow, hhigh⟩ := abs_lt.mp hsmall
  rw [truncate]
  by_cases h : 0 ≤ n + t
  · rw [if_pos h, Int.floor_intCast_add, Int.floor_eq_zero_iff.mpr ⟨hnonneg h, hhigh⟩, add_zero]
  · have hneg : n + t ≤ 0 := le_of_not_ge h
    rw [if_neg h, Int.ceil_intCast_add, Int.ceil_eq_zero_iff.mpr ⟨hlow, hnonpos hneg⟩, add_zero]

/-- A remainder on the side of its dividend stays on the side of the ratio. -/
theorem div_nonneg_of_side {a r : Int} (hnonneg : 0 ≤ a → 0 ≤ r) (hnonpos : a ≤ 0 → r ≤ 0) {b : ℚ}
    (h : 0 ≤ a / b) : 0 ≤ r / b := by
  rcases div_nonneg_iff.mp h with ⟨ha, hb⟩ | ⟨ha, hb⟩
  · exact div_nonneg (Int.cast_nonneg (hnonneg (Int.cast_nonneg_iff.mp ha))) hb
  · exact div_nonneg_of_nonpos (Int.cast_nonpos.mpr (hnonpos (Int.cast_nonpos.mp ha))) hb

section

variable {a b q r : Int}

/-- A quotient is the ratio with its decimals cut off if its remainder is small and on the side of the dividend. -/
theorem truncate_div (hb : b ≠ 0) (hsplit : a = b * q + r) (hsmall : |r| < |b|)
    (hnonneg : 0 ≤ a → 0 ≤ r) (hnonpos : a ≤ 0 → r ≤ 0) : truncate ((a : ℚ) / b) = q := by
  have hratio : (a : ℚ) / b = q + (r : ℚ) / b := by
    have hb' : (b : ℚ) ≠ 0 := Int.cast_ne_zero.mpr hb
    rw [hsplit]
    push_cast
    field_simp
  rw [hratio]
  apply truncate_intCast_add
  · rw [abs_div, div_lt_one (abs_pos.mpr (Int.cast_ne_zero.mpr hb))]
    exact_mod_cast hsmall
  · rw [← hratio]
    exact div_nonneg_of_side hnonneg hnonpos
  · rw [← hratio]
    intro h
    have hside : 0 ≤ (a : ℚ) / -b := by
      rw [div_neg]
      exact neg_nonneg.mpr h
    have hrest := div_nonneg_of_side hnonneg hnonpos hside
    rw [div_neg] at hrest
    exact neg_nonneg.mp hrest

end

namespace Number

variable {a b : Int}

theorem intQuotient_eq_tdiv (a b : Int) : intQuotient a b = a.tdiv b := by
  have of_nonneg : ∀ {n : Int}, 0 ≤ n → (n.natAbs : Int) = n := Int.natAbs_of_nonneg
  have of_neg : ∀ {n : Int}, n < 0 → (n.natAbs : Int) = -n := fun h => Int.ofNat_natAbs_of_nonpos h.le
  rw [intQuotient, Int.ofNat_tdiv]
  rcases lt_or_ge a 0 with ha | ha
  · rcases lt_or_ge b 0 with hb | hb
    · rw [if_pos (by omega), of_neg ha, of_neg hb, Int.neg_tdiv, Int.tdiv_neg, neg_neg]
    · rw [if_neg (by omega), of_neg ha, of_nonneg hb, Int.neg_tdiv, neg_neg]
  · rcases lt_or_ge b 0 with hb | hb
    · rw [if_neg (by omega), of_nonneg ha, of_neg hb, Int.tdiv_neg, neg_neg]
    · rw [if_pos (by omega), of_nonneg ha, of_nonneg hb]

theorem intRemainder_eq_tmod (a b : Int) : a - b * intQuotient a b = a.tmod b := by
  rw [intQuotient_eq_tdiv, Int.tmod_def]

theorem abs_tmod_lt (hb : b ≠ 0) : |a.tmod b| < |b| := by
  rw [Int.abs_eq_natAbs, Int.abs_eq_natAbs, Int.natAbs_tmod]
  exact_mod_cast Nat.mod_lt _ (Int.natAbs_pos.mpr hb)

theorem tmod_nonpos (ha : a ≤ 0) : a.tmod b ≤ 0 := by
  have h := Int.tmod_nonneg b (neg_nonneg.mpr ha)
  rw [Int.neg_tmod] at h
  exact neg_nonneg.mp h

theorem tmod_sign (a b : Int) : a.tmod b = 0 ∨ (a.tmod b).sign = a.sign := by
  rw [Int.sign_tmod]
  by_cases h : b ∣ a
  · exact .inl (Int.tmod_eq_zero_of_dvd h)
  · exact .inr (if_neg h)

end Number

/-! ### Trees -/

section

variable {functions : Registry} {c : Context} {e f : Expr} {a b : Int}

theorem eval_int_arith {op : BinOp} {arith : ArithOp} (hop : op.arith? = some arith)
    (he : eval functions c e = .ok (.int a)) (hf : eval functions c f = .ok (.int b)) (hb : b ≠ 0) :
    eval functions c (.bin op e f) = .ok (.int (Number.intArith arith a b)) := by
  rw [eval_arith hop he hf, Number.arith_int arith a b hb]
  rfl

theorem eval_div (he : eval functions c e = .ok (.int a)) (hf : eval functions c f = .ok (.int b))
    (hb : b ≠ 0) : eval functions c (.bin .div e f) = .ok (.int (a.tdiv b)) := by
  rw [eval_int_arith rfl he hf hb, ← Number.intQuotient_eq_tdiv]
  rfl

theorem eval_rem (he : eval functions c e = .ok (.int a)) (hf : eval functions c f = .ok (.int b))
    (hb : b ≠ 0) : eval functions c (.bin .rem e f) = .ok (.int (a.tmod b)) := by
  rw [eval_int_arith rfl he hf hb, ← Number.intRemainder_eq_tmod]
  rfl

theorem eval_by_zero {op : BinOp} {arith : ArithOp} (hop : op.arith? = some arith)
    (hdivides : Number.ArithOp.divides arith = true) (he : eval functions c e = .ok (.int a))
    (hf : eval functions c f = .ok (.int 0)) :
    eval functions c (.bin op e f) = .fail (.divisionByZero op.symbol) := by
  rw [eval_arith hop he hf, Number.arith, hdivides]
  rfl

theorem eval_neg (he : eval functions c e = .ok (.int a)) :
    eval functions c (.un .neg e) = .ok (.int (-a)) := by
  rw [eval, he]
  rfl

end

/-- Between two integers both divisions refuse the divisor zero. For any other divisor they give a quotient and a
remainder that make up the dividend. The remainder is smaller than the divisor, and zero or of the sign of the
dividend; the quotient is the ratio truncated toward zero. A minus on the dividend changes the sign of both, and a
minus on the divisor that of the quotient only. -/
theorem integer_division (functions : Registry) (c : Context) {e f : Expr} {a b : Int}
    (he : eval functions c e = .ok (.int a)) (hf : eval functions c f = .ok (.int b)) :
    (b = 0 → eval functions c (.bin .div e f) = .fail (.divisionByZero "/") ∧
      eval functions c (.bin .rem e f) = .fail (.divisionByZero "%")) ∧
    (b ≠ 0 → ∃ q r : Int, eval functions c (.bin .div e f) = .ok (.int q) ∧
      eval functions c (.bin .rem e f) = .ok (.int r) ∧
      a = b * q + r ∧ |r| < |b| ∧ (r = 0 ∨ r.sign = a.sign) ∧ q = truncate ((a : ℚ) / b) ∧
      eval functions c (.bin .div (.un .neg e) f) = .ok (.int (-q)) ∧
      eval functions c (.bin .div e (.un .neg f)) = .ok (.int (-q)) ∧
      eval functions c (.bin .rem (.un .neg e) f) = .ok (.int (-r)) ∧
      eval functions c (.bin .rem e (.un .neg f)) = .ok (.int r)) := by
  constructor
  · rintro rfl
    exact ⟨eval_by_zero rfl rfl he hf, eval_by_zero rfl rfl he hf⟩
  · intro hb
    have hneg : -b ≠ 0 := neg_ne_zero.mpr hb
    have hsplit : a = b * a.tdiv b + a.tmod b := (Int.mul_tdiv_add_tmod a b).symm
    have hsmall : |a.tmod b| < |b| := Number.abs_tmod_lt hb
    have htruncate := truncate_div hb hsplit hsmall (Int.tmod_nonneg b) Number.tmod_nonpos
    refine ⟨a.tdiv b, a.tmod b, eval_div he hf hb, eval_rem he hf hb, hsplit, hsmall,
      Number.tmod_sign a b, htruncate.symm, ?_, ?_, ?_, ?_⟩
    · rw [← Int.neg_tdiv]
      exact eval_div (eval_neg he) hf hb
    · rw [← Int.tdiv_neg]
      exact eval_div he (eval_neg hf) hneg
    · rw [← Int.neg_tmod]
      exact eval_rem (eval_neg he) hf hb
    · rw [← Int.tmod_neg]
      exact eval_rem he (eval_neg hf) hneg

def ofDebt : Context := ⟨[("debt", .int (-7)), ("shares", .int 2)], []⟩

theorem integer_division_ofDebt :
    let debt : Expr := .path "debt" []
    let shares : Expr := .path "shares" []
    eval .builtin ofDebt debt = .ok (.int (-7)) ∧ eval .builtin ofDebt shares = .ok (.int 2) ∧ (2 : Int) ≠ 0 ∧
      eval .builtin ofDebt (.bin .div debt shares) = .ok (.int (-3)) ∧
      eval .builtin ofDebt (.bin .rem debt shares) = .ok (.int (-1)) ∧
      truncate (((-7 : Int) : ℚ) / (2 : Int)) = -3 ∧
      eval .builtin ofDebt (.bin .rem debt (.un .neg shares)) = .ok (.int (-1)) := by
  intro debt shares
  have hdebt : eval .builtin ofDebt debt = .ok (.int (-7)) := rfl
  have hshares : eval .builtin ofDebt shares = .ok (.int 2) := rfl
  have htwo : (2 : Int) ≠ 0 := by decide
  have hquotient : eval .builtin ofDebt (.bin .div debt shares) = .ok (.int (-3)) := rfl
  have hrest : eval .builtin ofDebt (.bin .rem debt shares) = .ok (.int (-1)) := rfl
  obtain ⟨q, r, hq, hr, -, -, -, htruncate, -, -, -, hminus⟩ :=
    (integer_division .builtin ofDebt hdebt hshares).2 htwo
  cases hquotient.symm.trans hq
  cases hrest.symm.trans hr
  exact ⟨hdebt, hshares, htwo, hquotient, hrest, htruncate.symm, hminus⟩

end Rulebook
