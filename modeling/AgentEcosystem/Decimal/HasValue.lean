import AgentEcosystem.Decimal.DecimalValues

/-!
The operations on all decimals, special values included, seen through the
value of a finite one. Arithmetic on valued decimals gives the rounded value
when it returns, it returns when the exact result is in range, and comparisons
of valued decimals never raise.
-/
namespace DecimalArithmetic
open NearestRounding

namespace Decimal
variable {ctx : Context} {d e v : Decimal} {p q : ℚ}

def HasValue (d : Decimal) (q : ℚ) : Prop := ∃ x, d = .finite x ∧ x.toRat = q

theorem hasValue_finite (x : FiniteDecimal) : (Decimal.finite x).HasValue x.toRat :=
  ⟨x, rfl, rfl⟩

theorem hasValue_ofNat (n : ℕ) : (Decimal.ofNat n).HasValue n :=
  ⟨.ofNat n, rfl, by simp [FiniteDecimal.toRat, FiniteDecimal.ofNat, FiniteDecimal.signed]⟩

theorem hasValue_zero : (Decimal.ofNat 0).HasValue 0 := by
  simpa using hasValue_ofNat 0

theorem HasValue.unique (hp : d.HasValue p) (hq : d.HasValue q) : p = q := by
  obtain ⟨x, rfl, rfl⟩ := hp
  obtain ⟨y, eq, rfl⟩ := hq
  cases eq
  rfl

theorem map_finite_value {r : Except Signal FiniteDecimal} (value : ∀ x, r = .ok x → x.toRat = q)
    (h : r.map Decimal.finite = .ok v) : v.HasValue q := by
  rcases r with signal | x
  · cases h
  · cases h
    exact ⟨x, rfl, value x rfl⟩

theorem fix_map_ok {x : FiniteDecimal} (value : x.toRat = q) (small : |q| < (10 : ℚ) ^ ctx.emax) :
    ∃ v, (ctx.fix x).map Decimal.finite = .ok v ∧ v.HasValue (ctx.round q) := by
  subst value
  obtain ⟨y, fitted⟩ := ctx.fix_ok small
  rw [fitted]
  exact ⟨.finite y, rfl, y, rfl, ctx.fix_value fitted⟩

theorem add_hasValue (hp : d.HasValue p) (hq : e.HasValue q) (h : d.add ctx e = .ok v) :
    v.HasValue (ctx.round (p + q)) := by
  obtain ⟨x, rfl, rfl⟩ := hp
  obtain ⟨y, rfl, rfl⟩ := hq
  exact map_finite_value (fun _ sum => ctx.add_value sum) h

theorem add_ok (hp : d.HasValue p) (hq : e.HasValue q) (small : |p + q| < (10 : ℚ) ^ ctx.emax) :
    ∃ v, d.add ctx e = .ok v ∧ v.HasValue (ctx.round (p + q)) := by
  obtain ⟨x, rfl, rfl⟩ := hp
  obtain ⟨y, rfl, rfl⟩ := hq
  exact fix_map_ok (Context.exactSum_toRat x y) small

/- A sum also fits the precision, so dividing it by a power of ten is exact. -/
theorem add_short (hp : d.HasValue p) (hq : e.HasValue q) (h : d.add ctx e = .ok v) :
    ∃ z, v = .finite z ∧ z.toRat = ctx.round (p + q) ∧ numDigits z.coeff ≤ ctx.prec := by
  obtain ⟨x, rfl, rfl⟩ := hp
  obtain ⟨y, rfl, rfl⟩ := hq
  change (ctx.add x y).map Decimal.finite = .ok v at h
  rcases sum : ctx.add x y with signal | z
  · rw [sum] at h
    cases h
  · rw [sum] at h
    cases h
    exact ⟨z, rfl, ctx.add_value sum, ctx.fix_short sum⟩

theorem div_pow_hasValue {x : FiniteDecimal} {k : ℕ} (short : numDigits x.coeff ≤ ctx.prec)
    (h : (Decimal.finite x).div ctx (.ofNat (10 ^ k)) = .ok v) :
    v.HasValue (ctx.round (x.toRat / 10 ^ k)) :=
  map_finite_value (fun _ quotient => ctx.div_pow_value short quotient) h

theorem div_pow_ok {x : FiniteDecimal} {k : ℕ} (short : numDigits x.coeff ≤ ctx.prec)
    (small : |x.toRat / 10 ^ k| < (10 : ℚ) ^ ctx.emax) :
    ∃ v, (Decimal.finite x).div ctx (.ofNat (10 ^ k)) = .ok v ∧
      v.HasValue (ctx.round (x.toRat / 10 ^ k)) := by
  obtain ⟨y, fitted, value⟩ := ctx.div_pow_fix (k := k) short
  change ∃ v, (ctx.div x (.ofNat (10 ^ k))).map Decimal.finite = .ok v ∧ _
  rw [fitted]
  exact fix_map_ok value small

theorem sub_hasValue (hp : d.HasValue p) (hq : e.HasValue q) (h : d.sub ctx e = .ok v) :
    v.HasValue (ctx.round (p - q)) := by
  obtain ⟨x, rfl, rfl⟩ := hp
  obtain ⟨y, rfl, rfl⟩ := hq
  exact map_finite_value (fun _ diff => ctx.sub_value diff) h

theorem sub_ok (hp : d.HasValue p) (hq : e.HasValue q) (small : |p - q| < (10 : ℚ) ^ ctx.emax) :
    ∃ v, d.sub ctx e = .ok v ∧ v.HasValue (ctx.round (p - q)) := by
  obtain ⟨x, rfl, rfl⟩ := hp
  obtain ⟨y, rfl, rfl⟩ := hq
  have diff : (Context.exactSum x y.negate).toRat = x.toRat - y.toRat := by
    rw [Context.exactSum_toRat, Context.negate_toRat, sub_eq_add_neg]
  exact fix_map_ok diff small

theorem neg_hasValue (hp : d.HasValue p) (h : d.neg ctx = .ok v) :
    v.HasValue (ctx.round (-p)) := by
  obtain ⟨x, rfl, rfl⟩ := hp
  exact map_finite_value (fun _ flip => ctx.neg_value flip) h

theorem neg_ok (hp : d.HasValue p) (small : |p| < (10 : ℚ) ^ ctx.emax) :
    ∃ v, d.neg ctx = .ok v ∧ v.HasValue (ctx.round (-p)) := by
  obtain ⟨x, rfl, rfl⟩ := hp
  rw [← abs_neg] at small
  exact fix_map_ok (Context.neg_operand x) small

theorem abs_ok (hp : d.HasValue p) (small : |p| < (10 : ℚ) ^ ctx.emax) :
    ∃ v, d.abs ctx = .ok v ∧ v.HasValue (ctx.round |p|) := by
  obtain ⟨x, rfl, rfl⟩ := hp
  rw [← abs_abs] at small
  exact fix_map_ok (Context.abs_operand x) small

theorem mul_hasValue (hp : d.HasValue p) (hq : e.HasValue q) (h : d.mul ctx e = .ok v) :
    v.HasValue (ctx.round (p * q)) := by
  obtain ⟨x, rfl, rfl⟩ := hp
  obtain ⟨y, rfl, rfl⟩ := hq
  exact map_finite_value (fun _ product => ctx.mul_value product) h

theorem mul_ok (hp : d.HasValue p) (hq : e.HasValue q) (small : |p * q| < (10 : ℚ) ^ ctx.emax) :
    ∃ v, d.mul ctx e = .ok v ∧ v.HasValue (ctx.round (p * q)) := by
  obtain ⟨x, rfl, rfl⟩ := hp
  obtain ⟨y, rfl, rfl⟩ := hq
  exact fix_map_ok (Context.mul_toRat x y) small

theorem quantize_hasValue {k : ℤ} (hp : d.HasValue p) (h : d.quantize ctx k = .ok v) :
    v.HasValue (roundGrid ((10 : ℚ) ^ k) p) ∧
      |roundGrid ((10 : ℚ) ^ k) p| < (10 : ℚ) ^ (ctx.prec + k : ℤ) := by
  obtain ⟨x, rfl, rfl⟩ := hp
  change (ctx.quantize x k).map Decimal.finite = .ok v at h
  rcases run : ctx.quantize x k with signal | y
  · rw [run] at h
    cases h
  · rw [run] at h
    cases h
    rw [← ctx.quantize_value run]
    exact ⟨⟨y, rfl, rfl⟩, ctx.quantize_bound run⟩

theorem quantize_grid {k : ℤ} (hp : d.HasValue p) (tiny : ctx.etiny ≤ k)
    (top : ctx.prec + k ≤ ctx.emax) (onGrid : p ∈ Grid ((10 : ℚ) ^ k))
    (small : |p| < (10 : ℚ) ^ (ctx.prec + k : ℤ)) :
    ∃ v, d.quantize ctx k = .ok v ∧ v.HasValue p := by
  obtain ⟨x, rfl, rfl⟩ := hp
  have same := roundGrid_of_mem (ten_zpow_pos k) onGrid
  obtain ⟨y, run⟩ := ctx.quantize_fits tiny top small (by rw [same]; exact small)
  refine ⟨.finite y, by rw [Decimal.quantize, run]; rfl, y, rfl, ?_⟩
  rw [ctx.quantize_value run, same]

theorem quantize_ok {k : ℤ} (hp : d.HasValue p) (tiny : ctx.etiny ≤ k)
    (top : ctx.prec + k ≤ ctx.emax) (small : |p| < (10 : ℚ) ^ (ctx.prec + k - 1 : ℤ)) :
    ∃ v, d.quantize ctx k = .ok v := by
  obtain ⟨x, rfl, rfl⟩ := hp
  obtain ⟨y, run⟩ := ctx.quantize_ok tiny top small
  refine ⟨.finite y, ?_⟩
  rw [Decimal.quantize, run]
  rfl

theorem lt_hasValue (hp : d.HasValue p) (hq : e.HasValue q) : d.lt e = .ok (decide (p < q)) := by
  obtain ⟨x, rfl, rfl⟩ := hp
  obtain ⟨y, rfl, rfl⟩ := hq
  have same : x.lt y = decide (x.toRat < y.toRat) := by
    rw [Bool.eq_iff_iff, lt_iff_toRat, decide_eq_true_iff]
  rw [← same]
  rfl

theorem le_hasValue (hp : d.HasValue p) (hq : e.HasValue q) : d.le e = .ok (decide (p ≤ q)) := by
  have flip : (!decide (q < p)) = decide (p ≤ q) := by
    rw [Bool.eq_iff_iff]
    simp
  rw [Decimal.le, lt_hasValue hq hp, ← flip]
  rfl

theorem eq_hasValue (hp : d.HasValue p) (hq : e.HasValue q) : d.eq e = .ok (decide (p = q)) := by
  obtain ⟨x, rfl, rfl⟩ := hp
  obtain ⟨y, rfl, rfl⟩ := hq
  have same : x.eq y = decide (x.toRat = y.toRat) := by
    rw [Bool.eq_iff_iff, eq_iff_toRat, decide_eq_true_iff]
  rw [← same]
  rfl

theorem add_of_nan (nan : (d.isNaN || e.isNaN) = true) : d.add ctx e = propagate ctx d e := by
  cases d <;> cases e <;> first | rfl | cases nan

theorem propagate_ok_iff : (∃ v, propagate ctx d e = .ok v) ↔
    (d.isNaN || e.isNaN) = true ∧ (d.isSignaling || e.isSignaling) = false := by
  unfold propagate
  cases quiet : d.isSignaling || e.isSignaling with
  | true => simp
  | false =>
    rw [if_neg Bool.false_ne_true]
    cases d <;> cases e <;> simp [isNaN]

theorem propagate_quiet (h : propagate ctx d e = .ok v) :
    v.isNaN = true ∧ v.isSignaling = false := by
  have quiet := (propagate_ok_iff.mp ⟨v, h⟩).2
  unfold propagate at h
  rw [quiet, if_neg Bool.false_ne_true] at h
  split at h
  · cases h
    exact ⟨rfl, (Bool.or_eq_false_iff.mp quiet).1⟩
  · cases h
    exact ⟨rfl, (Bool.or_eq_false_iff.mp quiet).2⟩
  · cases h

theorem add_isNaN (h : d.add ctx e = .ok v) :
    v.isNaN = (d.isNaN || e.isNaN) ∧ v.isSignaling = false := by
  cases nan : d.isNaN || e.isNaN with
  | true =>
    rw [add_of_nan nan] at h
    exact propagate_quiet h
  | false =>
    cases d with
    | nan => cases nan
    | infinity s =>
      cases e with
      | nan => cases nan
      | infinity t =>
        simp only [Decimal.add] at h
        split at h <;> cases h
        exact ⟨rfl, rfl⟩
      | finite y =>
        cases h
        exact ⟨rfl, rfl⟩
    | finite x =>
      cases e with
      | nan => cases nan
      | infinity t =>
        cases h
        exact ⟨rfl, rfl⟩
      | finite y =>
        rcases sum : ctx.add x y with signal | z
        · simp only [Decimal.add, sum] at h
          cases h
        · simp only [Decimal.add, sum] at h
          cases h
          exact ⟨rfl, rfl⟩

/- Whether an order comparison raises does not depend on the order. -/
theorem lt_ok_iff : (∃ b, d.lt e = .ok b) ↔ (d.isNaN || e.isNaN) = false := by
  cases d <;> cases e <;> simp [Decimal.lt, isNaN]

theorem le_ok_iff : (∃ b, d.le e = .ok b) ↔ (d.isNaN || e.isNaN) = false := by
  rw [Bool.or_comm, ← lt_ok_iff, Decimal.le]
  rcases e.lt d with signal | b
  · simp [Except.map]
  · simp [Except.map]

theorem eq_ok_iff : (∃ b, d.eq e = .ok b) ↔ (d.isSignaling || e.isSignaling) = false := by
  unfold Decimal.eq
  cases quiet : d.isSignaling || e.isSignaling with
  | true => simp
  | false =>
    rw [if_neg Bool.false_ne_true]
    cases d <;> cases e <;> simp

theorem quiet_of_not_nan (number : d.isNaN = false) : d.isSignaling = false := by
  cases d with
  | nan => cases number
  | finite x => rfl
  | infinity s => rfl

end Decimal
end DecimalArithmetic
