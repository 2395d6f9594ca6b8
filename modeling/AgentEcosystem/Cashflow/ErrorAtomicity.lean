import AgentEcosystem.Cashflow.InflowSplit

/-!
Calls that raise. A call that writes several rows does so one after another, and
a call that raises takes none of them back: it is atomic only if nothing can
fail behind its first row. The parts of an inflow behind Operating's cannot. Of
an emergency transfer the first row takes the rounded amount and the second the
amount itself, which the schema may refuse.
-/
namespace CashflowLedger
open AgentSchemas DecimalArithmetic NearestRounding Raising Decimal Runs

section Calls
variable (P : Platform) (svc : CashflowService) (rows : Ledger)

omit P svc rows in
/- Overflow is taken from the part, so the part keeps every bound it had. -/
theorem part_le {p b : ℚ} (r o : ℚ) (cap : Option ℚ) (rep : b ∈ defaultContext.Representable)
    (onGrid : b ∈ Grid ((10 : ℚ) ^ (-4 : ℤ))) (le : p ≤ b) :
    toPlaces (rollValue r cap o p).2 ≤ b := by
  apply nearest_le (roundGrid_nearest (ten_zpow_pos fourPlaces) _) onGrid
  cases cap with
  | none => exact le
  | some c =>
    simp only [rollValue]
    split
    · rename_i exceeds
      have overflow := defaultContext.rounding.le_round zero_representable (sub_pos.mpr exceeds).le
      apply defaultContext.rounding.round_le rep
      change 0 ≤ defaultContext.round _ at overflow
      linarith
    · exact le

omit P svc rows in
theorem shares_small {a r g : ℚ} {cap cap' : Option ℚ} (shared : |shareValue a (3 / 5)| < 10 ^ 24)
    (credited : (splitValue a r cap g cap').1 < 10 ^ 8) :
    shareValue a (1 / 4) ≤ 99999999 ∧ shareValue a (3 / 20) ≤ 99999999 := by
  rcases lt_or_ge a 0 with negative | nonneg
  · have share : ∀ p, 0 ≤ p → shareValue a p ≤ 0 := by
      intro p nonneg
      apply nearest_le (roundGrid_nearest (ten_zpow_pos fourPlaces) _) (grid_zero _)
      exact defaultContext.rounding.round_le zero_representable
        (mul_nonpos_of_nonpos_of_nonneg negative.le nonneg)
    have res := share (1 / 4) (by norm_num)
    have gr := share (3 / 20) (by norm_num)
    constructor <;> linarith
  · have small := amount_small nonneg shared credited
    obtain ⟨_, nearRes, nearGr⟩ := shares_near nonneg (by linarith)
    have res := abs_le.mp nearRes
    have gr := abs_le.mp nearGr
    constructor <;> linarith

omit P svc rows in
theorem parts_small {a r g : ℚ} {cap cap' : Option ℚ} (shared : |shareValue a (3 / 5)| < 10 ^ 24)
    (credited : (splitValue a r cap g cap').1 < 10 ^ 8) :
    (splitValue a r cap g cap').2.1 < 10 ^ 8 ∧ (splitValue a r cap g cap').2.2 < 10 ^ 8 := by
  have rep : (99999999 : ℚ) ∈ defaultContext.Representable :=
    ⟨99999999, 0, by decide, by decide, by norm_num⟩
  have onGrid : (99999999 : ℚ) ∈ Grid ((10 : ℚ) ^ (-4 : ℤ)) := ⟨999999990000, by norm_num⟩
  obtain ⟨resShare, grShare⟩ := shares_small shared credited
  have res := part_le r (baseValue a) cap rep onGrid resShare
  have gr := part_le g (rollValue r cap (baseValue a) (shareValue a (1 / 4))).1 cap' rep onGrid
    grShare
  constructor <;> simp only [splitValue] <;> linarith

theorem creditPositive_returns {pot : Pot} {part : Decimal} {q : ℚ} (source : CashflowSource)
    (refId : Option String) (opEntry : CashflowEntry) (has : part.HasValue q)
    (onGrid : q ∈ Grid ((10 : ℚ) ^ (-4 : ℤ))) (small : q < 10 ^ 8) :
    Ensures (creditPositive P svc pot part source refId opEntry) rows (fun _ _ => True)
      (fun _ _ => False) := by
  apply ensures_bind
  rw [lt_hasValue hasValue_zero has]
  apply ensures_attempt _ (by intro e h; cases h)
  intro positive decided
  cases decided
  by_cases pos : 0 < q
  · rw [if_pos (decide_eq_true pos)]
    apply ensures_mono (credit_spec P svc rows pot source refId "" part) (fun _ _ _ => trivial)
    rintro err t ⟨_, refused⟩
    obtain ⟨x, rfl, rfl⟩ := has
    apply refused x rfl pos
    refine ⟨pos.ne', fun negative => absurd negative (not_lt.mpr pos.le), ⟨onGrid, ?_⟩, by decide⟩
    rw [abs_of_pos pos]
    norm_num [deltaMaxDigits, deltaDecimalPlaces]
    linarith
  · rw [if_neg (by simpa using pos)]
    exact ensures_pure trivial

end Calls

end CashflowLedger
