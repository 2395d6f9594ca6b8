import Mathlib.Algebra.Order.Floor.Ring
import Mathlib.Data.Set.Basic
import Mathlib.Order.Monotone.Basic
import Mathlib.Tactic.Linarith
import Mathlib.Tactic.Positivity
import Mathlib.Tactic.FieldSimp
import Mathlib.Tactic.Ring

/-!
Rounding to a nearest point of a set, over any ordered field. No radix and no
precision is fixed here. The first section leaves ties open: every lemma holds
of whichever nearest point is chosen. The second one fixes ties to even on a
grid of multiples, the rule a fixed number of decimals uses.
-/
namespace NearestRounding
variable {α : Type*} [Field α] [LinearOrder α] [IsStrictOrderedRing α]

/-- `z` is a point of `S` and no point of `S` is closer to `x`. -/
structure IsNearest (S : Set α) (x z : α) : Prop where
  mem : z ∈ S
  closest : ∀ s ∈ S, |x - z| ≤ |x - s|

theorem nearest_of_mem {S : Set α} {x z : α} (h : IsNearest S x z) (inside : x ∈ S) :
    z = x := by
  have close := h.closest x inside
  rw [sub_self, abs_zero] at close
  exact (sub_eq_zero.mp (abs_nonpos_iff.mp close)).symm

/- A nearest point never jumps over a point of the set. -/
theorem le_nearest {S : Set α} {s x z : α} (h : IsNearest S x z) (mem : s ∈ S)
    (below : s ≤ x) : s ≤ z := by
  by_contra jump
  have lt : z < s := not_le.mp jump
  have close := h.closest s mem
  rw [abs_of_nonneg (by linarith), abs_of_nonneg (by linarith)] at close
  linarith

theorem nearest_le {S : Set α} {s x z : α} (h : IsNearest S x z) (mem : s ∈ S)
    (above : x ≤ s) : z ≤ s := by
  by_contra jump
  have lt : s < z := not_le.mp jump
  have close := h.closest s mem
  rw [abs_of_nonpos (by linarith), abs_of_nonpos (by linarith)] at close
  linarith

theorem nearest_mono_of_lt {S : Set α} {x y z w : α} (hz : IsNearest S x z)
    (hw : IsNearest S y w) (lt : x < y) : z ≤ w := by
  by_contra crossed
  have wz : w < z := not_le.mp crossed
  have wx : w < x := by
    by_contra no
    exact crossed (nearest_le hz hw.mem (not_lt.mp no))
  have yz : y < z := by
    by_contra no
    exact crossed (le_nearest hw hz.mem (not_lt.mp no))
  have cz := hz.closest w hw.mem
  have cw := hw.closest z hz.mem
  rw [abs_of_neg (by linarith), abs_of_pos (by linarith)] at cz
  rw [abs_of_pos (by linarith), abs_of_neg (by linarith)] at cw
  linarith

structure Rounding (S : Set α) where
  round : α → α
  nearest : ∀ x, IsNearest S x (round x)

namespace Rounding
variable {S : Set α} (R : Rounding S)

theorem round_of_mem {x : α} (h : x ∈ S) : R.round x = x := nearest_of_mem (R.nearest x) h

theorem round_mono {x y : α} (le : x ≤ y) : R.round x ≤ R.round y := by
  rcases le.lt_or_eq with lt | eq
  · exact nearest_mono_of_lt (R.nearest x) (R.nearest y) lt
  · rw [eq]

theorem le_round {s x : α} (mem : s ∈ S) (below : s ≤ x) : s ≤ R.round x :=
  le_nearest (R.nearest x) mem below

theorem round_le {s x : α} (mem : s ∈ S) (above : x ≤ s) : R.round x ≤ s :=
  nearest_le (R.nearest x) mem above

end Rounding

section Grids
omit [LinearOrder α] [IsStrictOrderedRing α]

def Grid (q : α) : Set α := {x | ∃ m : ℤ, x = m * q}

theorem grid_add {q x y : α} (hx : x ∈ Grid q) (hy : y ∈ Grid q) : x + y ∈ Grid q := by
  obtain ⟨m, rfl⟩ := hx
  obtain ⟨n, rfl⟩ := hy
  exact ⟨m + n, by push_cast; ring⟩

theorem grid_neg {q x : α} (hx : x ∈ Grid q) : -x ∈ Grid q := by
  obtain ⟨m, rfl⟩ := hx
  exact ⟨-m, by push_cast; ring⟩

theorem grid_sub {q x y : α} (hx : x ∈ Grid q) (hy : y ∈ Grid q) : x - y ∈ Grid q := by
  rw [sub_eq_add_neg]
  exact grid_add hx (grid_neg hy)

theorem grid_zero (q : α) : (0 : α) ∈ Grid q := ⟨0, by simp⟩

end Grids

section HalfEven
variable [FloorRing α]

/-- The nearest integer, an exact half going to the even neighbour. -/
def roundEven (x : α) : ℤ :=
  let k := ⌊x⌋
  if x - k < 1 / 2 ∨ (x - k = 1 / 2 ∧ k % 2 = 0) then k else k + 1

theorem roundEven_spec (x : α) : |x - roundEven x| < 1 / 2 ∨
    (|x - roundEven x| = 1 / 2 ∧ roundEven x % 2 = 0) := by
  have low := Int.floor_le x
  have high := Int.lt_floor_add_one x
  simp only [roundEven]
  split
  · rename_i down
    rw [abs_of_nonneg (by linarith)]
    exact down
  · rename_i up
    have half : 1 / 2 ≤ x - ⌊x⌋ := not_lt.mp fun lt => up (Or.inl lt)
    push_cast
    rw [abs_of_nonpos (by linarith)]
    rcases half.lt_or_eq with lt | eq
    · exact Or.inl (by linarith)
    · have odd : ⌊x⌋ % 2 ≠ 0 := fun even => up (Or.inr ⟨eq.symm, even⟩)
      exact Or.inr ⟨by linarith, by omega⟩

theorem roundEven_error (x : α) : |x - (roundEven x : α)| ≤ 1 / 2 := by
  rcases roundEven_spec x with lt | ⟨eq, _⟩
  · exact lt.le
  · exact eq.le

/- The tie rule determines the result, so it can be checked from either side. -/
theorem roundEven_unique {x : α} {k : ℤ}
    (near : |x - k| < 1 / 2 ∨ (|x - k| = 1 / 2 ∧ k % 2 = 0)) : roundEven x = k := by
  have bound : |x - k| ≤ 1 / 2 := by
    rcases near with lt | ⟨eq, _⟩
    · exact lt.le
    · exact eq.le
  obtain ⟨left, right⟩ := abs_le.mp bound
  rcases le_or_gt (k : α) x with below | above
  · have floor : ⌊x⌋ = k := Int.floor_eq_iff.mpr ⟨below, by linarith⟩
    rw [abs_of_nonneg (by linarith)] at near
    simp only [roundEven, floor]
    exact if_pos near
  · have floor : ⌊x⌋ = k - 1 := Int.floor_eq_iff.mpr ⟨by push_cast; linarith, by push_cast; linarith⟩
    rw [abs_of_neg (by linarith)] at near
    simp only [roundEven, floor]
    rw [if_neg]
    · omega
    · push_cast
      rintro (lt | ⟨eq, odd⟩)
      · linarith
      · rcases near with lt | ⟨_, even⟩
        · linarith
        · omega

theorem roundEven_neg (x : α) : roundEven (-x) = -roundEven x := by
  apply roundEven_unique
  have flip : |-x - ((-roundEven x : ℤ) : α)| = |x - roundEven x| := by
    rw [← abs_neg]
    push_cast
    congr 1
    ring
  rw [flip]
  rcases roundEven_spec x with lt | ⟨eq, even⟩
  · exact Or.inl lt
  · exact Or.inr ⟨eq, by omega⟩

theorem roundEven_closest (x : α) (k : ℤ) : |x - (roundEven x : α)| ≤ |x - (k : α)| := by
  by_cases same : roundEven x = k
  · rw [same]
  · have apart : (1 : α) ≤ |(roundEven x : α) - k| := by
      have h : (1 : ℤ) ≤ |roundEven x - k| := Int.one_le_abs (sub_ne_zero.mpr same)
      exact_mod_cast h
    have near := roundEven_error x
    have triangle := abs_sub_le (roundEven x : α) x k
    rw [abs_sub_comm (roundEven x : α) x] at triangle
    linarith

def roundGrid (q x : α) : α := roundEven (x / q) * q

omit [IsStrictOrderedRing α] in
theorem roundGrid_mem (q x : α) : roundGrid q x ∈ Grid q := ⟨_, rfl⟩

theorem roundGrid_error {q : α} (pos : 0 < q) (x : α) : |x - roundGrid q x| ≤ q / 2 := by
  have scaled : x - roundGrid q x = (x / q - roundEven (x / q)) * q := by
    rw [roundGrid]
    field_simp
  rw [scaled, abs_mul, abs_of_pos pos]
  calc |x / q - roundEven (x / q)| * q ≤ 1 / 2 * q :=
        mul_le_mul_of_nonneg_right (roundEven_error _) pos.le
    _ = q / 2 := by ring

theorem roundGrid_nearest {q : α} (pos : 0 < q) (x : α) :
    IsNearest (Grid q) x (roundGrid q x) := by
  refine ⟨roundGrid_mem q x, ?_⟩
  rintro s ⟨m, rfl⟩
  have scaled (k : ℤ) : |x - k * q| = |x / q - k| * q := by
    rw [← abs_of_pos pos, ← abs_mul, abs_of_pos pos]
    congr 1
    field_simp
  rw [roundGrid, scaled, scaled]
  exact mul_le_mul_of_nonneg_right (roundEven_closest _ m) pos.le

theorem roundGrid_of_mem {q x : α} (pos : 0 < q) (h : x ∈ Grid q) : roundGrid q x = x :=
  nearest_of_mem (roundGrid_nearest pos x) h

theorem roundGrid_neg (q x : α) : roundGrid q (-x) = -roundGrid q x := by
  rw [roundGrid, neg_div, roundEven_neg, roundGrid]
  push_cast
  ring

def gridRounding (q : α) (pos : 0 < q) : Rounding (Grid q) where
  round := roundGrid q
  nearest := roundGrid_nearest pos

end HalfEven
end NearestRounding
