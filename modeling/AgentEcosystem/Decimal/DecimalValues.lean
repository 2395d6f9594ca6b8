import AgentEcosystem.Decimal.ContextArithmetic
import AgentEcosystem.Decimal.NearestRounding
import Mathlib.Data.Int.Log
import Mathlib.Data.Rat.Floor
import Mathlib.Tactic.Zify

/-!
What the operations of a context compute: the exact result, rounded to a
nearest number the context can represent. Everything a program proves about
decimal values goes through `Context.round`, never through digits.
-/
namespace DecimalArithmetic
open NearestRounding

def FiniteDecimal.toRat (x : FiniteDecimal) : ℚ := x.signed * (10 : ℚ) ^ x.exp

theorem ten_zpow_pos (e : ℤ) : (0 : ℚ) < 10 ^ e := zpow_pos (by norm_num) e

theorem ten_zpow_add (a b : ℤ) : (10 : ℚ) ^ (a + b) = 10 ^ a * 10 ^ b :=
  zpow_add₀ (by norm_num) a b

theorem ten_zpow_le {a b : ℤ} (h : a ≤ b) : (10 : ℚ) ^ a ≤ 10 ^ b :=
  zpow_le_zpow_right₀ (by norm_num) h

theorem grid_ten_subset {a b : ℤ} (h : a ≤ b) {x : ℚ} (mem : x ∈ Grid ((10 : ℚ) ^ b)) :
    x ∈ Grid ((10 : ℚ) ^ a) := by
  obtain ⟨m, rfl⟩ := mem
  refine ⟨m * 10 ^ (b - a).toNat, ?_⟩
  have split : b = ((b - a).toNat : ℤ) + a := by omega
  conv_lhs => rw [split, ten_zpow_add, zpow_natCast]
  push_cast
  ring

theorem toRat_mem_grid (x : FiniteDecimal) : x.toRat ∈ Grid ((10 : ℚ) ^ x.exp) :=
  ⟨x.signed, rfl⟩

theorem signedAt_value (x : FiniteDecimal) {e : ℤ} (h : e ≤ x.exp) :
    (x.signedAt e : ℚ) * 10 ^ e = x.toRat := by
  have split : x.exp = ((x.exp - e).toNat : ℤ) + e := by omega
  conv_rhs => rw [FiniteDecimal.toRat, split, ten_zpow_add, zpow_natCast]
  simp only [FiniteDecimal.signedAt]
  push_cast
  ring

theorem lt_iff_toRat (x y : FiniteDecimal) : x.lt y = true ↔ x.toRat < y.toRat := by
  have hx := signedAt_value x (min_le_left x.exp y.exp)
  have hy := signedAt_value y (min_le_right x.exp y.exp)
  rw [← hx, ← hy, mul_lt_mul_iff_left₀ (ten_zpow_pos _)]
  simp only [FiniteDecimal.lt, decide_eq_true_eq]
  exact_mod_cast Iff.rfl

theorem le_iff_toRat (x y : FiniteDecimal) : x.le y = true ↔ x.toRat ≤ y.toRat := by
  rw [FiniteDecimal.le, Bool.not_eq_true', ← Bool.not_eq_true, lt_iff_toRat, not_lt]

theorem eq_iff_toRat (x y : FiniteDecimal) : x.eq y = true ↔ x.toRat = y.toRat := by
  rw [FiniteDecimal.eq, Bool.and_eq_true, le_iff_toRat, le_iff_toRat]
  exact ⟨fun h => le_antisymm h.1 h.2, fun h => ⟨h.le, h.ge⟩⟩

namespace Context
variable (ctx : Context)

def Representable : Set ℚ :=
  {q | ∃ m e : ℤ, ctx.etiny ≤ e ∧ |m| < 10 ^ ctx.prec ∧ q = m * (10 : ℚ) ^ e}

def quantumExp (x : ℚ) : ℤ := max (Int.log 10 |x| + 1 - ctx.prec) ctx.etiny

def round (x : ℚ) : ℚ := roundGrid ((10 : ℚ) ^ ctx.quantumExp x) x

theorem abs_lt_quantum {x : ℚ} : |x| < (10 : ℚ) ^ (ctx.prec + ctx.quantumExp x : ℤ) := by
  have digits := Int.lt_zpow_succ_log_self (b := 10) (by decide) |x|
  have le : Int.log 10 |x| + 1 ≤ ctx.prec + ctx.quantumExp x := by
    have := le_max_left (Int.log 10 |x| + 1 - ctx.prec) ctx.etiny
    simp only [quantumExp]
    omega
  exact lt_of_lt_of_le (by exact_mod_cast digits) (ten_zpow_le le)

theorem representable_of_grid {e : ℤ} {q : ℚ} (tiny : ctx.etiny ≤ e)
    (grid : q ∈ Grid ((10 : ℚ) ^ e)) (small : |q| < (10 : ℚ) ^ (ctx.prec + e : ℤ)) :
    q ∈ ctx.Representable := by
  obtain ⟨m, rfl⟩ := grid
  refine ⟨m, e, tiny, ?_, rfl⟩
  rw [ten_zpow_add, abs_mul, abs_of_pos (ten_zpow_pos e),
    mul_lt_mul_iff_left₀ (ten_zpow_pos e), zpow_natCast] at small
  exact_mod_cast small

/- A full coefficient is one digit too long, but its last digit is zero. -/
theorem representable_of_grid_le {e : ℤ} {q : ℚ} (tiny : ctx.etiny ≤ e)
    (grid : q ∈ Grid ((10 : ℚ) ^ e)) (small : |q| ≤ (10 : ℚ) ^ (ctx.prec + e : ℤ)) :
    q ∈ ctx.Representable := by
  rcases small.lt_or_eq with lt | eq
  · exact ctx.representable_of_grid tiny grid lt
  · have next : (10 : ℚ) ^ (ctx.prec + e : ℤ) ∈ Grid ((10 : ℚ) ^ (e + 1)) := by
      refine grid_ten_subset ?_ (b := ctx.prec + e) ⟨1, by simp⟩
      have := ctx.prec_pos
      omega
    have member : q ∈ Grid ((10 : ℚ) ^ (e + 1)) := by
      rcases abs_choice q with same | flip
      · rw [← same, eq]; exact next
      · rw [← neg_neg q, ← flip, eq]; exact grid_neg next
    refine ctx.representable_of_grid (by omega) member ?_
    rw [eq]
    exact zpow_lt_zpow_right₀ (by norm_num) (by omega)

theorem round_mem (x : ℚ) : ctx.round x ∈ ctx.Representable := by
  have tiny : ctx.etiny ≤ ctx.quantumExp x := le_max_right _ _
  apply ctx.representable_of_grid_le tiny (roundGrid_mem _ _)
  -- the bound itself lies on the grid, so rounding does not pass it
  have near := roundGrid_nearest (ten_zpow_pos (ctx.quantumExp x)) x
  have bound : (10 : ℚ) ^ (ctx.prec + ctx.quantumExp x : ℤ) ∈
      Grid ((10 : ℚ) ^ ctx.quantumExp x) :=
    grid_ten_subset (by omega) (b := ctx.prec + ctx.quantumExp x) ⟨1, by simp⟩
  obtain ⟨low, high⟩ := abs_le.mp ctx.abs_lt_quantum.le
  exact abs_le.mpr ⟨le_nearest near (grid_neg bound) low, nearest_le near bound high⟩

theorem round_closest (x s : ℚ) (hs : s ∈ ctx.Representable) :
    |x - ctx.round x| ≤ |x - s| := by
  have near := roundGrid_nearest (ten_zpow_pos (ctx.quantumExp x)) x
  obtain ⟨m, j, tiny, small, rfl⟩ := hs
  by_cases coarse : ctx.quantumExp x ≤ j
  · exact near.closest _ (grid_ten_subset coarse ⟨m, rfl⟩)
  · rcases eq_or_ne x 0 with zero | nonzero
    · subst zero
      rw [round, roundGrid_of_mem (ten_zpow_pos _) (grid_zero _), sub_self, abs_zero]
      exact abs_nonneg _
    -- a finer number is shorter than the leading power of ten of `x`
    · have lead : ctx.quantumExp x = Int.log 10 |x| + 1 - ctx.prec := by
        have := max_choice (Int.log 10 |x| + 1 - ctx.prec) ctx.etiny
        simp only [quantumExp] at coarse ⊢
        omega
      have power : (10 : ℚ) ^ Int.log 10 |x| ≤ |x| := by
        exact_mod_cast Int.zpow_log_le_self (b := 10) (by decide) (abs_pos.mpr nonzero)
      have onGrid : (10 : ℚ) ^ Int.log 10 |x| ∈ Grid ((10 : ℚ) ^ ctx.quantumExp x) := by
        refine grid_ten_subset ?_ (b := Int.log 10 |x|) ⟨1, by simp⟩
        have := ctx.prec_pos
        omega
      have short : |(m : ℚ) * 10 ^ j| ≤ (10 : ℚ) ^ Int.log 10 |x| := by
        have mle : |(m : ℚ)| ≤ (10 : ℚ) ^ (ctx.prec : ℤ) := by
          rw [zpow_natCast]
          exact_mod_cast small.le
        rw [abs_mul, abs_of_pos (ten_zpow_pos j)]
        calc |(m : ℚ)| * 10 ^ j ≤ 10 ^ (ctx.prec : ℤ) * 10 ^ j :=
              mul_le_mul_of_nonneg_right mle (ten_zpow_pos j).le
          _ = 10 ^ (ctx.prec + j : ℤ) := (ten_zpow_add _ _).symm
          _ ≤ 10 ^ Int.log 10 |x| := ten_zpow_le (by omega)
      generalize (10 : ℚ) ^ Int.log 10 |x| = top at power onGrid short
      obtain ⟨slow, shigh⟩ := abs_le.mp short
      rcases lt_or_gt_of_ne nonzero with neg | pos
      · rw [abs_of_neg neg] at power
        refine (near.closest _ (grid_neg onGrid)).trans ?_
        rw [abs_of_nonpos (by linarith), abs_of_nonpos (by linarith)]
        linarith
      · rw [abs_of_pos pos] at power
        refine (near.closest _ onGrid).trans ?_
        rw [abs_of_nonneg (by linarith), abs_of_nonneg (by linarith)]
        linarith

def rounding : Rounding ctx.Representable where
  round := ctx.round
  nearest x := ⟨ctx.round_mem x, ctx.round_closest x⟩

theorem round_of_representable {x : ℚ} (h : x ∈ ctx.Representable) : ctx.round x = x :=
  ctx.rounding.round_of_mem h

theorem round_mono {x y : ℚ} (le : x ≤ y) : ctx.round x ≤ ctx.round y :=
  ctx.rounding.round_mono le

theorem round_neg (x : ℚ) : ctx.round (-x) = -ctx.round x := by
  simp only [round, quantumExp, abs_neg, roundGrid_neg]

theorem round_mem_grid {e : ℤ} {x : ℚ} (h : x ∈ Grid ((10 : ℚ) ^ e)) :
    ctx.round x ∈ Grid ((10 : ℚ) ^ e) := by
  by_cases fine : ctx.quantumExp x ≤ e
  · rw [round, roundGrid_of_mem (ten_zpow_pos _) (grid_ten_subset fine h)]
    exact h
  · exact grid_ten_subset (by omega) (roundGrid_mem _ _)

theorem round_of_grid {e : ℤ} {x : ℚ} (tiny : ctx.etiny ≤ e) (h : x ∈ Grid ((10 : ℚ) ^ e))
    (small : |x| < (10 : ℚ) ^ (ctx.prec + e : ℤ)) : ctx.round x = x :=
  ctx.round_of_representable (ctx.representable_of_grid tiny h small)

/- Above a full coefficient the representable numbers are ten times as far apart. -/
theorem round_error {k : ℤ} {x : ℚ} (tiny : ctx.etiny ≤ k)
    (small : |x| < (10 : ℚ) ^ (ctx.prec + k : ℤ)) : |x - ctx.round x| ≤ (10 : ℚ) ^ k / 2 := by
  by_cases zero : x = 0
  · have fixed : ctx.round x = x := by
      rw [zero]
      exact roundGrid_of_mem (ten_zpow_pos _) (grid_zero _)
    rw [fixed, sub_self, abs_zero]
    exact (half_pos (ten_zpow_pos k)).le
  · have digits : Int.log 10 |x| < ctx.prec + k := by
      apply (Int.lt_zpow_iff_log_lt (b := 10) (by decide) (abs_pos.mpr zero)).mp
      exact_mod_cast small
    have finer : ctx.quantumExp x ≤ k := max_le (by omega) tiny
    have error := roundGrid_error (ten_zpow_pos (ctx.quantumExp x)) x
    have coarse := ten_zpow_le finer
    unfold round
    linarith

theorem round_neg_of_grid {e : ℤ} {x : ℚ} (tiny : ctx.etiny ≤ e) (h : x ∈ Grid ((10 : ℚ) ^ e))
    (neg : x < 0) : ctx.round x < 0 := by
  obtain ⟨m, rfl⟩ := h
  have unit := ten_zpow_pos e
  have whole : m ≤ -1 := by
    have : m < 0 := by
      by_contra nonneg
      exact absurd neg (not_lt.mpr (mul_nonneg (by exact_mod_cast not_lt.mp nonneg) unit.le))
    omega
  have rep : -(10 : ℚ) ^ e ∈ ctx.Representable := by
    apply ctx.representable_of_grid tiny ⟨-1, by simp⟩
    rw [abs_neg, abs_of_pos unit]
    have := ctx.prec_pos
    exact zpow_lt_zpow_right₀ (by norm_num) (by omega)
  have below : (m : ℚ) * 10 ^ e ≤ -(10 : ℚ) ^ e := by
    have cast : (m : ℚ) ≤ -1 := by exact_mod_cast whole
    nlinarith
  have rounded := ctx.rounding.round_le rep below
  exact lt_of_le_of_lt rounded (neg_neg_of_pos unit)

theorem representable_gap {k : ℤ} {z : ℚ} (rep : z ∈ ctx.Representable)
    (above : (10 : ℚ) ^ (ctx.prec + k : ℤ) < z) :
    (10 : ℚ) ^ (ctx.prec + k : ℤ) + 10 ^ (k + 1) ≤ z := by
  obtain ⟨m, e, _, small, rfl⟩ := rep
  have coarse : k + 1 ≤ e := by
    by_contra fine
    have mle : (m : ℚ) ≤ 10 ^ (ctx.prec : ℤ) := by
      rw [zpow_natCast]
      exact_mod_cast (le_abs_self m).trans small.le
    have bound : (m : ℚ) * 10 ^ e ≤ 10 ^ (ctx.prec + k : ℤ) := by
      calc (m : ℚ) * 10 ^ e ≤ 10 ^ (ctx.prec : ℤ) * 10 ^ e :=
            mul_le_mul_of_nonneg_right mle (ten_zpow_pos e).le
        _ = 10 ^ (ctx.prec + e : ℤ) := (ten_zpow_add _ _).symm
        _ ≤ 10 ^ (ctx.prec + k : ℤ) := ten_zpow_le (by omega)
    exact absurd above (not_lt.mpr bound)
  have grid : (m : ℚ) * 10 ^ e - 10 ^ (ctx.prec + k : ℤ) ∈ Grid ((10 : ℚ) ^ (k + 1)) := by
    refine grid_sub (grid_ten_subset coarse ⟨m, rfl⟩)
      (grid_ten_subset ?_ (b := ctx.prec + k) ⟨1, by simp⟩)
    have := ctx.prec_pos
    omega
  obtain ⟨n, hn⟩ := grid
  have npos : (0 : ℚ) < n := by
    have : 0 < (n : ℚ) * 10 ^ (k + 1) := by linarith
    exact pos_of_mul_pos_left this (ten_zpow_pos _).le
  have one : (1 : ℚ) ≤ n := by exact_mod_cast npos
  have step : 1 * (10 : ℚ) ^ (k + 1) ≤ n * 10 ^ (k + 1) :=
    mul_le_mul_of_nonneg_right one (ten_zpow_pos _).le
  linarith

/-- Small additions to a full coefficient are rounded away. -/
theorem round_absorbs {k : ℤ} {x : ℚ} (tiny : ctx.etiny ≤ k)
    (near : x < (10 : ℚ) ^ (ctx.prec + k : ℤ) + 10 ^ (k + 1) / 2) :
    ctx.round x ≤ (10 : ℚ) ^ (ctx.prec + k : ℤ) := by
  by_contra beyond
  have above := not_le.mp beyond
  have rep : (10 : ℚ) ^ (ctx.prec + k : ℤ) ∈ ctx.Representable := by
    apply ctx.representable_of_grid_le tiny
    · exact grid_ten_subset (by omega) (b := ctx.prec + k) ⟨1, by simp⟩
    · rw [abs_of_pos (ten_zpow_pos _)]
  have gap := ctx.representable_gap (ctx.round_mem x) above
  have past : (10 : ℚ) ^ (ctx.prec + k : ℤ) < x := by
    by_contra le
    exact beyond (ctx.rounding.round_le rep (not_lt.mp le))
  have close := ctx.round_closest x _ rep
  rw [abs_of_pos (sub_pos.mpr past), abs_sub_comm, abs_of_nonneg (by linarith)] at close
  linarith

theorem round_abs_absorbs {k : ℤ} {x : ℚ} (tiny : ctx.etiny ≤ k)
    (near : |x| < (10 : ℚ) ^ (ctx.prec + k : ℤ) + 10 ^ (k + 1) / 2) :
    |ctx.round x| ≤ (10 : ℚ) ^ (ctx.prec + k : ℤ) := by
  obtain ⟨low, high⟩ := abs_lt.mp near
  have below := ctx.round_absorbs tiny (x := -x) (by linarith)
  rw [ctx.round_neg] at below
  exact abs_le.mpr ⟨by linarith, ctx.round_absorbs tiny high⟩

theorem dropDigits_near (n k : ℕ) :
    |(n : ℚ) / 10 ^ k - dropDigits n k| < 1 / 2 ∨
      (|(n : ℚ) / 10 ^ k - dropDigits n k| = 1 / 2 ∧ dropDigits n k % 2 = 0) := by
  have pos : (0 : ℚ) < 10 ^ k := by positivity
  have split : (n : ℚ) / 10 ^ k = (n / 10 ^ k : ℕ) + ((n % 10 ^ k : ℕ) : ℚ) / 10 ^ k := by
    rw [div_eq_iff pos.ne', add_mul, div_mul_cancel₀ _ pos.ne']
    exact_mod_cast (Nat.div_add_mod' n (10 ^ k)).symm
  have small : n % 10 ^ k < 10 ^ k := Nat.mod_lt _ (by positivity)
  simp only [dropDigits]
  generalize n / 10 ^ k = q at split ⊢
  generalize n % 10 ^ k = r at split small ⊢
  have halves (s : ℚ) : ((r : ℚ) / 10 ^ k < s ↔ (r : ℚ) < s * 10 ^ k) ∧
      ((r : ℚ) / 10 ^ k = s ↔ (r : ℚ) = s * 10 ^ k) :=
    ⟨div_lt_iff₀ pos, div_eq_iff pos.ne'⟩
  have nonneg : (0 : ℚ) ≤ (r : ℚ) / 10 ^ k := by positivity
  split
  · rename_i down
    rw [split, add_sub_cancel_left, abs_of_nonneg nonneg, (halves _).1, (halves _).2]
    rcases down with lt | ⟨eq, even⟩
    · left
      have : (2 * r : ℚ) < 10 ^ k := by exact_mod_cast lt
      linarith
    · right
      have : (2 * r : ℚ) = 10 ^ k := by exact_mod_cast eq
      exact ⟨by linarith, even⟩
  · rename_i up
    have below : (r : ℚ) / 10 ^ k < 1 := (halves 1).1.mpr (by rw [one_mul]; exact_mod_cast small)
    have shape : (q : ℚ) + (r : ℚ) / 10 ^ k - ((q + 1 : ℕ) : ℚ) = -(1 - (r : ℚ) / 10 ^ k) := by
      push_cast
      ring
    rw [split, shape, abs_neg, abs_of_pos (by linarith)]
    rcases lt_trichotomy (2 * r) (10 ^ k) with lt | eq | gt
    · exact absurd (Or.inl lt) up
    · right
      have half : (r : ℚ) / 10 ^ k = 1 / 2 := by
        rw [(halves _).2]
        have : (2 * r : ℚ) = 10 ^ k := by exact_mod_cast eq
        linarith
      refine ⟨by rw [half]; norm_num, ?_⟩
      have odd : q % 2 ≠ 0 := fun even => up (Or.inr ⟨eq, even⟩)
      omega
    · left
      have : (10 : ℚ) ^ k < 2 * r := by exact_mod_cast gt
      have half : 1 / 2 < (r : ℚ) / 10 ^ k := by
        rw [lt_div_iff₀ pos]
        linarith
      linarith

def signFactor (neg : Bool) : ℤ := if neg then -1 else 1

theorem toRat_mk (neg : Bool) (c : ℕ) (e : ℤ) :
    (FiniteDecimal.mk neg c e).toRat = signFactor neg * c * (10 : ℚ) ^ e := by
  cases neg <;> simp [FiniteDecimal.toRat, FiniteDecimal.signed, signFactor]

theorem abs_toRat (x : FiniteDecimal) : |x.toRat| = x.coeff * (10 : ℚ) ^ x.exp := by
  rw [toRat_mk x.neg x.coeff x.exp, abs_mul, abs_mul, abs_of_pos (ten_zpow_pos _)]
  cases x.neg <;> simp [signFactor]

theorem roundEven_dropDigits (neg : Bool) (n k : ℕ) :
    roundEven ((signFactor neg : ℚ) * ((n : ℚ) / 10 ^ k)) = signFactor neg * dropDigits n k := by
  apply roundEven_unique
  have flip : |(signFactor neg : ℚ) * ((n : ℚ) / 10 ^ k) -
      ((signFactor neg * dropDigits n k : ℤ) : ℚ)| = |(n : ℚ) / 10 ^ k - dropDigits n k| := by
    push_cast
    rw [← mul_sub, abs_mul]
    cases neg <;> simp [signFactor]
  rw [flip]
  rcases dropDigits_near n k with lt | ⟨eq, even⟩
  · exact Or.inl lt
  · refine Or.inr ⟨eq, ?_⟩
    cases neg <;> simp only [signFactor, if_true, Bool.false_eq_true, if_false] <;> omega

theorem roundGrid_dropDigits (neg : Bool) (n k : ℕ) (e : ℤ) :
    roundGrid ((10 : ℚ) ^ (e + k)) (FiniteDecimal.mk neg n e).toRat =
      (FiniteDecimal.mk neg (dropDigits n k) (e + k)).toRat := by
  have scale : (FiniteDecimal.mk neg n e).toRat / 10 ^ (e + k) =
      signFactor neg * ((n : ℚ) / 10 ^ k) := by
    rw [toRat_mk, ten_zpow_add, zpow_natCast]
    have := (ten_zpow_pos e).ne'
    field_simp
  rw [roundGrid, scale, roundEven_dropDigits, toRat_mk]
  push_cast
  ring

theorem log_toRat {x : FiniteDecimal} (nonzero : x.coeff ≠ 0) :
    Int.log 10 |x.toRat| = Nat.log 10 x.coeff + x.exp := by
  have coeffPos : (0 : ℚ) < x.coeff := by exact_mod_cast Nat.pos_of_ne_zero nonzero
  have pos : 0 < |x.toRat| := by
    rw [abs_toRat]
    exact mul_pos coeffPos (ten_zpow_pos _)
  have low : (10 : ℚ) ^ (Nat.log 10 x.coeff : ℤ) ≤ x.coeff := by
    rw [zpow_natCast]
    exact_mod_cast Nat.pow_log_le_self 10 nonzero
  have high : (x.coeff : ℚ) < 10 ^ (Nat.log 10 x.coeff + 1 : ℤ) := by
    have := Nat.lt_pow_succ_log_self (b := 10) (by decide) x.coeff
    exact_mod_cast this
  apply le_antisymm
  · rw [← Int.lt_add_one_iff, ← Int.lt_zpow_iff_log_lt (by decide) pos, abs_toRat]
    calc (x.coeff : ℚ) * 10 ^ x.exp < 10 ^ (Nat.log 10 x.coeff + 1 : ℤ) * 10 ^ x.exp :=
          mul_lt_mul_of_pos_right high (ten_zpow_pos _)
      _ = ((10 : ℕ) : ℚ) ^ (Nat.log 10 x.coeff + x.exp + 1 : ℤ) := by
          rw [← ten_zpow_add]
          push_cast
          congr 1
          ring
  · rw [← Int.zpow_le_iff_le_log (by decide) pos, abs_toRat]
    push_cast
    rw [ten_zpow_add]
    exact mul_le_mul_of_nonneg_right low (ten_zpow_pos _).le

theorem quantumExp_toRat {x : FiniteDecimal} (nonzero : x.coeff ≠ 0) :
    ctx.quantumExp x.toRat = max (numDigits x.coeff + x.exp - ctx.prec) ctx.etiny := by
  rw [quantumExp, log_toRat nonzero, numDigits]
  congr 1
  push_cast
  ring

theorem numDigits_le_iff {n k : ℕ} (pos : 0 < k) : numDigits n ≤ k ↔ n < 10 ^ k := by
  rw [numDigits, Nat.succ_le_iff]
  exact ⟨Nat.lt_pow_of_log_lt (by decide), Nat.log_lt_of_lt_pow' pos.ne'⟩

theorem dropDigits_le {n k m : ℕ} (h : n < 10 ^ (m + k)) : dropDigits n k ≤ 10 ^ m := by
  have q : n / 10 ^ k < 10 ^ m := by
    rw [Nat.div_lt_iff_lt_mul (by positivity), ← pow_add]
    exact h
  simp only [dropDigits]
  split <;> omega

theorem carried_toRat (neg : Bool) {p : ℕ} (nonzero : p ≠ 0) (e : ℤ) :
    (FiniteDecimal.mk neg (10 ^ p / 10) (e + 1)).toRat = (FiniteDecimal.mk neg (10 ^ p) e).toRat := by
  have tenth : ((10 ^ p / 10 : ℕ) : ℚ) * 10 = (10 ^ p : ℕ) := by
    exact_mod_cast Nat.div_mul_cancel (dvd_pow_self 10 nonzero)
  rw [toRat_mk, toRat_mk, ten_zpow_add, zpow_one, ← tenth]
  ring

/-- What fitting a number does: its value is rounded. -/
theorem fix_value {x y : FiniteDecimal} (h : ctx.fix x = .ok y) :
    y.toRat = ctx.round x.toRat := by
  have onGrid (z : FiniteDecimal) (le : ctx.quantumExp z.toRat ≤ z.exp) :
      ctx.round z.toRat = z.toRat :=
    roundGrid_of_mem (ten_zpow_pos _) (grid_ten_subset le (toRat_mem_grid z))
  unfold fix at h
  split at h
  · rename_i zero
    have value (e : ℤ) : (FiniteDecimal.mk x.neg x.coeff e).toRat = 0 := by
      rw [toRat_mk, zero]
      simp
    cases h
    rw [value, value, round, roundGrid_of_mem (ten_zpow_pos _) (grid_zero _)]
  · rename_i nonzero
    have quantum := ctx.quantumExp_toRat nonzero
    dsimp only at h
    split at h
    · cases h
    · split at h
      · rename_i fits cut
        rw [← quantum] at h cut
        have shift : x.exp + ((ctx.quantumExp x.toRat - x.exp).toNat : ℤ) =
            ctx.quantumExp x.toRat := by omega
        have dropped := roundGrid_dropDigits x.neg x.coeff
          (ctx.quantumExp x.toRat - x.exp).toNat x.exp
        rw [shift] at dropped
        split at h
        · rename_i carry
          split at h
          · cases h
          · cases h
            -- only a full power of ten has one digit too many
            have digits : x.coeff < 10 ^ (ctx.prec + (ctx.quantumExp x.toRat - x.exp).toNat) := by
              rw [← numDigits_le_iff (by have := ctx.prec_pos; omega)]
              have := le_max_left (numDigits x.coeff + x.exp - ctx.prec) ctx.etiny
              omega
            have upper := dropDigits_le digits
            have lower := (not_congr (numDigits_le_iff ctx.prec_pos)).mp (not_le.mpr carry)
            have full : dropDigits x.coeff (ctx.quantumExp x.toRat - x.exp).toNat =
                10 ^ ctx.prec := by omega
            rw [full] at dropped ⊢
            rw [carried_toRat _ ctx.prec_pos.ne']
            exact dropped.symm
        · cases h
          exact dropped.symm
      · cases h
        rename_i fits
        rw [onGrid x (by rw [quantum]; omega)]

theorem fix_ok {x : FiniteDecimal} (bound : |x.toRat| < (10 : ℚ) ^ ctx.emax) :
    ∃ y, ctx.fix x = .ok y := by
  unfold fix
  split
  · exact ⟨_, rfl⟩
  · rename_i nonzero
    have pos : 0 < |x.toRat| := by
      rw [abs_toRat]
      exact mul_pos (by exact_mod_cast Nat.pos_of_ne_zero nonzero) (ten_zpow_pos _)
    have small : Nat.log 10 x.coeff + x.exp < ctx.emax := by
      rw [← log_toRat nonzero, ← Int.lt_zpow_iff_log_lt (by decide) pos]
      exact_mod_cast bound
    have ordered := ctx.ordered
    have least : numDigits x.coeff + x.exp - ctx.prec + 1 ≤ ctx.etop := by
      simp only [numDigits, etop]
      push_cast
      omega
    have tiny : ctx.etiny + 1 ≤ ctx.etop := by
      simp only [etiny, etop]
      omega
    dsimp only
    split
    · omega
    · split
      · split
        · split
          · omega
          · exact ⟨_, rfl⟩
        · exact ⟨_, rfl⟩
      · exact ⟨_, rfl⟩

theorem signed_natAbs (n : ℤ) (b : Bool) (e : ℤ) :
    (FiniteDecimal.mk (if n = 0 then b else decide (n < 0)) n.natAbs e).signed = n := by
  simp only [FiniteDecimal.signed]
  rcases lt_trichotomy n 0 with neg | zero | pos
  · rw [if_neg neg.ne, if_pos (decide_eq_true neg)]
    omega
  · subst zero
    simp
  · rw [if_neg pos.ne', if_neg (by simpa using pos.le)]
    omega

theorem exactSum_toRat (x y : FiniteDecimal) : (exactSum x y).toRat = x.toRat + y.toRat := by
  have hx := signedAt_value x (min_le_left x.exp y.exp)
  have hy := signedAt_value y (min_le_right x.exp y.exp)
  rw [← hx, ← hy, ← add_mul, FiniteDecimal.toRat, exactSum, signed_natAbs]
  push_cast
  rfl

theorem negate_toRat (x : FiniteDecimal) : x.negate.toRat = -x.toRat := by
  obtain ⟨neg, c, e⟩ := x
  cases neg <;> simp [FiniteDecimal.negate, FiniteDecimal.toRat, FiniteDecimal.signed]

theorem add_value {x y z : FiniteDecimal} (h : ctx.add x y = .ok z) :
    z.toRat = ctx.round (x.toRat + y.toRat) := by
  rw [ctx.fix_value h, exactSum_toRat]

theorem sub_value {x y z : FiniteDecimal} (h : ctx.sub x y = .ok z) :
    z.toRat = ctx.round (x.toRat - y.toRat) := by
  rw [ctx.add_value h, negate_toRat, sub_eq_add_neg]

theorem neg_operand (x : FiniteDecimal) :
    (if x.coeff = 0 then { x with neg := false } else x.negate).toRat = -x.toRat := by
  split
  · rename_i zero
    simp [FiniteDecimal.toRat, FiniteDecimal.signed, zero]
  · exact negate_toRat x

theorem neg_value {x z : FiniteDecimal} (h : ctx.neg x = .ok z) :
    z.toRat = ctx.round (-x.toRat) := by
  rw [ctx.fix_value h, neg_operand]

theorem abs_operand (x : FiniteDecimal) : ({ x with neg := false }).toRat = |x.toRat| := by
  rw [abs_toRat, toRat_mk]
  simp [signFactor]

theorem mul_toRat (x y : FiniteDecimal) : (exactProduct x y).toRat = x.toRat * y.toRat := by
  rw [toRat_mk x.neg x.coeff x.exp, toRat_mk y.neg y.coeff y.exp, exactProduct, toRat_mk,
    ten_zpow_add]
  cases x.neg <;> cases y.neg <;> simp [signFactor] <;> ring

theorem mul_value {x y z : FiniteDecimal} (h : ctx.mul x y = .ok z) :
    z.toRat = ctx.round (x.toRat * y.toRat) := by
  rw [ctx.fix_value h, mul_toRat]

/-! Division is exact when the quotient's digits end within the precision. -/

theorem fix_short {x y : FiniteDecimal} (h : ctx.fix x = .ok y) :
    numDigits y.coeff ≤ ctx.prec := by
  have prec_pos := ctx.prec_pos
  unfold fix at h
  split at h
  · rename_i zero
    cases h
    simp only [zero, numDigits, Nat.log_zero_right]
    omega
  · dsimp only at h
    split at h
    · cases h
    · have limit := le_max_left (numDigits x.coeff + x.exp - ctx.prec) ctx.etiny
      split at h
      · rename_i cut
        split at h
        · rename_i carry
          split at h
          · cases h
          · cases h
            have digits : x.coeff < 10 ^ (ctx.prec +
                (max (numDigits x.coeff + x.exp - ctx.prec) ctx.etiny - x.exp).toNat) := by
              rw [← numDigits_le_iff (by omega)]
              omega
            have upper := Nat.div_le_div_right (c := 10) (dropDigits_le digits)
            rw [numDigits_le_iff prec_pos]
            have full : 10 ^ ctx.prec / 10 < 10 ^ ctx.prec :=
              Nat.div_lt_self (by positivity) (by decide)
            exact lt_of_le_of_lt upper full
        · cases h
          rename_i fits
          exact not_lt.mp fits
      · cases h
        omega

theorem stripZeros_value (fuel c : ℕ) (e : ℤ) :
    ((stripZeros fuel c e).1 : ℚ) * 10 ^ (stripZeros fuel c e).2 = c * 10 ^ e := by
  induction fuel generalizing c e with
  | zero => rfl
  | succ fuel ih =>
    unfold stripZeros
    split
    · rename_i zero
      have tenth : ((c / 10 : ℕ) : ℚ) * 10 = c := by
        exact_mod_cast Nat.div_mul_cancel (Nat.dvd_of_mod_eq_zero zero)
      rw [ih, ten_zpow_add, zpow_one, ← tenth]
      ring
    · rfl

theorem numDigits_pow (k : ℕ) : numDigits (10 ^ k) = k + 1 := by
  rw [numDigits, Nat.log_pow (by decide)]

/- The quotient's digits, once the dividend has been shifted far enough. -/
theorem shifted_quotient (c k : ℕ) {n : ℕ} (far : k ≤ n) (e : ℤ) :
    ((c * 10 ^ n / 10 ^ k : ℕ) : ℚ) * 10 ^ (e - n) = c * (10 : ℚ) ^ (e - k) := by
  obtain ⟨m, rfl⟩ := Nat.exists_eq_add_of_le far
  have whole : c * 10 ^ (k + m) / 10 ^ k = c * 10 ^ m := by
    rw [pow_add, mul_left_comm, Nat.mul_div_cancel_left _ (by positivity)]
  have split : e - ((k + m : ℕ) : ℤ) = -(m : ℤ) + (e - k) := by
    push_cast
    ring
  rw [whole, split, ten_zpow_add, zpow_neg, zpow_natCast]
  push_cast
  field_simp

theorem div_pow_fix {x : FiniteDecimal} {k : ℕ} (short : numDigits x.coeff ≤ ctx.prec) :
    ∃ y, ctx.div x (.ofNat (10 ^ k)) = ctx.fix y ∧ y.toRat = x.toRat / 10 ^ k := by
  have quotient : x.toRat / 10 ^ k = signFactor x.neg * (x.coeff * (10 : ℚ) ^ (x.exp - k)) := by
    rw [toRat_mk x.neg x.coeff x.exp, div_eq_mul_inv, ← zpow_natCast, ← zpow_neg,
      sub_eq_add_neg, ten_zpow_add]
    ring
  have sign : (x.neg != false) = x.neg := by cases x.neg <;> rfl
  have positive : (10 : ℕ) ^ k ≠ 0 := by positivity
  simp only [div, FiniteDecimal.ofNat, positive, if_false, sub_zero, sign]
  split
  · rename_i zero
    refine ⟨_, rfl, ?_⟩
    rw [quotient, toRat_mk, zero]
    simp
  · obtain ⟨n, shift, far⟩ : ∃ n : ℕ,
        (numDigits (10 ^ k) - numDigits x.coeff + ctx.prec + 1 : ℤ) = n ∧ k ≤ n := by
      rw [numDigits_pow]
      exact ⟨k + 1 + ctx.prec + 1 - numDigits x.coeff, by omega, by omega⟩
    have divides : x.coeff * 10 ^ n % 10 ^ k = 0 :=
      Nat.mod_eq_zero_of_dvd (Dvd.dvd.mul_left (pow_dvd_pow 10 far) _)
    have still : (-(n : ℤ)).toNat = 0 := by omega
    simp only [shift, Int.toNat_natCast, still, pow_zero, mul_one, divides, if_true]
    refine ⟨_, rfl, ?_⟩
    rw [toRat_mk, mul_assoc, stripZeros_value, shifted_quotient _ _ far, quotient]

theorem div_pow_value {x z : FiniteDecimal} {k : ℕ} (short : numDigits x.coeff ≤ ctx.prec)
    (h : ctx.div x (.ofNat (10 ^ k)) = .ok z) : z.toRat = ctx.round (x.toRat / 10 ^ k) := by
  obtain ⟨y, fitted, value⟩ := ctx.div_pow_fix (k := k) short
  rw [fitted] at h
  rw [ctx.fix_value h, value]

theorem rescale_toRat (x : FiniteDecimal) (e : ℤ) :
    (rescale x e).toRat = roundGrid ((10 : ℚ) ^ e) x.toRat := by
  unfold rescale
  split
  · rename_i le
    have same : (FiniteDecimal.mk x.neg (x.coeff * 10 ^ (x.exp - e).toNat) e).toRat = x.toRat := by
      have split : x.exp = ((x.exp - e).toNat : ℤ) + e := by omega
      rw [toRat_mk x.neg x.coeff x.exp, toRat_mk]
      conv_rhs => rw [split, ten_zpow_add, zpow_natCast]
      push_cast
      ring
    rw [same, roundGrid_of_mem (ten_zpow_pos _) (grid_ten_subset le (toRat_mem_grid x))]
  · have shift : x.exp + ((e - x.exp).toNat : ℤ) = e := by omega
    have dropped := roundGrid_dropDigits x.neg x.coeff (e - x.exp).toNat x.exp
    rw [shift] at dropped
    exact dropped.symm

theorem rescale_exp (x : FiniteDecimal) (e : ℤ) : (rescale x e).exp = e := by
  unfold rescale
  split <;> rfl

/- A number that already fits is left as it is, trailing zeros included. -/
theorem fix_eq_self {x : FiniteDecimal} (short : numDigits x.coeff ≤ ctx.prec)
    (tiny : ctx.etiny ≤ x.exp) (low : x.exp ≤ ctx.emax) (top : x.adjusted ≤ ctx.emax) :
    ctx.fix x = .ok x := by
  unfold fix
  split
  · have clamp : min (max x.exp ctx.etiny) ctx.emax = x.exp := by omega
    rw [clamp]
  · have fits : ¬ ctx.etop < numDigits x.coeff + x.exp - ctx.prec := by
      simp only [FiniteDecimal.adjusted] at top
      simp only [etop]
      omega
    have kept : ¬ x.exp < max (numDigits x.coeff + x.exp - ctx.prec : ℤ) ctx.etiny := by omega
    dsimp only
    rw [if_neg fits, if_neg kept]

theorem quantize_eq_rescale {x y : FiniteDecimal} {e : ℤ} (h : ctx.quantize x e = .ok y) :
    y = rescale x e ∧ numDigits y.coeff ≤ ctx.prec := by
  unfold quantize at h
  split at h
  · cases h
  · split at h
    · rename_i range zero
      have plain : rescale x e = ⟨x.neg, 0, e⟩ := by
        unfold rescale
        split <;> simp [zero, dropDigits]
      have short : numDigits 0 ≤ ctx.prec := by
        have := ctx.prec_pos
        simp only [numDigits, Nat.log_zero_right]
        omega
      rw [ctx.fix_eq_self short (by dsimp only; omega) (by dsimp only; omega)
        (by simp only [FiniteDecimal.adjusted, numDigits, Nat.log_zero_right]; omega)] at h
      cases h
      exact ⟨plain.symm, short⟩
    · split at h
      · cases h
      · dsimp only at h
        split at h
        · cases h
        · rename_i range _ _ fits
          have e' := rescale_exp x e
          rw [ctx.fix_eq_self (by omega) (by omega) (by omega) (by omega)] at h
          cases h
          exact ⟨rfl, by omega⟩

/-- Quantizing rounds to the grid of the asked exponent, whatever the context's precision. -/
theorem quantize_value {x y : FiniteDecimal} {e : ℤ} (h : ctx.quantize x e = .ok y) :
    y.toRat = roundGrid ((10 : ℚ) ^ e) x.toRat := by
  rw [(ctx.quantize_eq_rescale h).1, rescale_toRat]

theorem quantize_bound {x y : FiniteDecimal} {e : ℤ} (h : ctx.quantize x e = .ok y) :
    |y.toRat| < (10 : ℚ) ^ (ctx.prec + e : ℤ) := by
  obtain ⟨rfl, short⟩ := ctx.quantize_eq_rescale h
  rw [abs_toRat, rescale_exp, ten_zpow_add]
  refine mul_lt_mul_of_pos_right ?_ (ten_zpow_pos e)
  rw [zpow_natCast]
  exact_mod_cast (numDigits_le_iff ctx.prec_pos).mp short

theorem quantize_fits {x : FiniteDecimal} {e : ℤ} (tiny : ctx.etiny ≤ e)
    (top : ctx.prec + e ≤ ctx.emax) (small : |x.toRat| < (10 : ℚ) ^ (ctx.prec + e : ℤ))
    (kept : |roundGrid ((10 : ℚ) ^ e) x.toRat| < (10 : ℚ) ^ (ctx.prec + e : ℤ)) :
    ∃ y, ctx.quantize x e = .ok y := by
  have precision := ctx.prec_pos
  unfold quantize
  rw [if_neg (by omega)]
  split
  · apply ctx.fix_ok
    rw [toRat_mk, Nat.cast_zero, mul_zero, zero_mul, abs_zero]
    exact ten_zpow_pos _
  · next nonzero =>
    have pos : 0 < |x.toRat| := by
      rw [abs_toRat]
      exact mul_pos (by exact_mod_cast Nat.pos_of_ne_zero nonzero) (ten_zpow_pos _)
    have leading : Nat.log 10 x.coeff + x.exp < ctx.prec + e := by
      rw [← log_toRat nonzero, ← Int.lt_zpow_iff_log_lt (by decide) pos]
      exact_mod_cast small
    have adjusted : x.adjusted = Nat.log 10 x.coeff + x.exp := by
      simp only [FiniteDecimal.adjusted, numDigits]
      omega
    rw [if_neg (by omega)]
    have short : numDigits (rescale x e).coeff ≤ ctx.prec := by
      rw [numDigits_le_iff precision]
      rw [← rescale_toRat, abs_toRat, rescale_exp, ten_zpow_add,
        mul_lt_mul_iff_left₀ (ten_zpow_pos e), zpow_natCast] at kept
      exact_mod_cast kept
    have exponent := rescale_exp x e
    have fits : (rescale x e).adjusted ≤ ctx.emax := by
      simp only [FiniteDecimal.adjusted, exponent]
      omega
    dsimp only
    rw [if_neg (by omega)]
    exact ⟨_, ctx.fix_eq_self short (by omega) (by omega) fits⟩

theorem quantize_ok {x : FiniteDecimal} {e : ℤ} (tiny : ctx.etiny ≤ e) (top : ctx.prec + e ≤ ctx.emax)
    (small : |x.toRat| < (10 : ℚ) ^ (ctx.prec + e - 1 : ℤ)) : ∃ y, ctx.quantize x e = .ok y := by
  have precision := ctx.prec_pos
  have unit : (10 : ℚ) ^ (ctx.prec + e - 1 : ℤ) ∈ Grid ((10 : ℚ) ^ (ctx.prec + e - 1 : ℤ)) :=
    ⟨1, by simp⟩
  have limit := grid_ten_subset (show e ≤ ctx.prec + e - 1 by omega) unit
  have spare : (10 : ℚ) ^ (ctx.prec + e - 1 : ℤ) < 10 ^ (ctx.prec + e : ℤ) :=
    zpow_lt_zpow_right₀ (by norm_num) (by omega)
  have bounded : |roundGrid ((10 : ℚ) ^ e) x.toRat| ≤ (10 : ℚ) ^ (ctx.prec + e - 1 : ℤ) := by
    obtain ⟨low, high⟩ := abs_lt.mp small
    rw [abs_le]
    constructor
    · exact (gridRounding _ (ten_zpow_pos e)).le_round (grid_neg limit) low.le
    · exact (gridRounding _ (ten_zpow_pos e)).round_le limit high.le
  exact ctx.quantize_fits tiny top (small.trans spare) (bounded.trans_lt spare)

end Context
end DecimalArithmetic
