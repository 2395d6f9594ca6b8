import AgentEcosystem.Llm.LowWaterDowngrade
import AgentEcosystem.Llm.MonthlyBudget

/-!
How far an estimate is from the exact price. Only the last step rounds, so an
estimate is off by half a unit at most, and a reply within the announced tokens
never costs more than the estimate the call was admitted with.
-/
namespace ModelRouter
open AgentSchemas DecimalArithmetic NearestRounding Decimal

def price (model : ModelID) (tokensIn tokensOut : ℤ) : ℚ :=
  dueUnrounded model tokensIn tokensOut / 10 ^ 6

def priceExponent : ModelID → ℤ
  | .opus47 | .sonnet46 | .haiku45 => 0
  | .geminiFlashLite25 => -1

structure Small (model : ModelID) (tokensIn tokensOut : ℤ) : Prop where
  nonnegIn : 0 ≤ tokensIn
  nonnegOut : 0 ≤ tokensOut
  fits : dueUnrounded model tokensIn tokensOut <
    10 ^ (defaultContext.prec + priceExponent model : ℤ)

def Priced (model : ModelID) (tokensIn tokensOut : ℤ) (q : ℚ) : Prop :=
  ∃ cost, estimateCostUsd model tokensIn tokensOut = .ok cost ∧ cost.HasValue q

theorem price_units (model : ModelID) :
    priceIn model ∈ Grid ((10 : ℚ) ^ priceExponent model) ∧
      priceOut model ∈ Grid ((10 : ℚ) ^ priceExponent model) := by
  cases model with
  | opus47 => exact ⟨⟨5, by norm_num [priceIn, priceExponent]⟩,
      ⟨25, by norm_num [priceOut, priceExponent]⟩⟩
  | sonnet46 => exact ⟨⟨3, by norm_num [priceIn, priceExponent]⟩,
      ⟨15, by norm_num [priceOut, priceExponent]⟩⟩
  | haiku45 => exact ⟨⟨1, by norm_num [priceIn, priceExponent]⟩,
      ⟨5, by norm_num [priceOut, priceExponent]⟩⟩
  | geminiFlashLite25 => exact ⟨⟨1, by norm_num [priceIn, priceExponent]⟩,
      ⟨4, by norm_num [priceOut, priceExponent]⟩⟩

section Estimates
variable {model : ModelID} {tokensIn tokensOut : ℤ}

theorem dueUnrounded_mono {a a' b b' : ℤ} (inLe : a ≤ a') (outLe : b ≤ b') :
    dueUnrounded model a b ≤ dueUnrounded model a' b' := by
  obtain ⟨priceInNonneg, priceOutNonneg⟩ := price_nonneg model
  exact add_le_add
    (mul_le_mul_of_nonneg_right (by exact_mod_cast inLe) priceInNonneg)
    (mul_le_mul_of_nonneg_right (by exact_mod_cast outLe) priceOutNonneg)

theorem Small.mono {a a' b b' : ℤ} (small : Small model a' b') (nonneg : 0 ≤ a) (nonneg' : 0 ≤ b)
    (inLe : a ≤ a') (outLe : b ≤ b') : Small model a b :=
  ⟨nonneg, nonneg', (dueUnrounded_mono inLe outLe).trans_lt small.fits⟩

theorem price_nonneg_of_small (small : Small model tokensIn tokensOut) :
    0 ≤ price model tokensIn tokensOut := by
  have free : dueUnrounded model 0 0 = 0 := by simp [dueUnrounded]
  have least : dueUnrounded model 0 0 ≤ dueUnrounded model tokensIn tokensOut :=
    dueUnrounded_mono small.nonnegIn small.nonnegOut
  rw [free] at least
  exact div_nonneg least (by norm_num)

theorem price_grid (model : ModelID) (tokensIn tokensOut : ℤ) (whole : priceExponent model = 0) :
    price model tokensIn tokensOut ∈ Grid ((10 : ℚ) ^ sixPlaces) := by
  obtain ⟨⟨m, hm⟩, n, hn⟩ := price_units model
  refine ⟨tokensIn * m + tokensOut * n, ?_⟩
  rw [price, dueUnrounded, hm, hn, whole]
  norm_num [sixPlaces]
  ring

/- Whole prices need no rounding; with one more decimal a digit is left to round into. -/
theorem quantized (small : Small model tokensIn tokensOut) {quotient : Decimal}
    (value : quotient.HasValue (price model tokensIn tokensOut)) :
    ∃ cost, quotient.quantize defaultContext sixPlaces = .ok cost := by
  have fits := small.fits
  have size := price_nonneg_of_small small
  have bound : price model tokensIn tokensOut <
      10 ^ (defaultContext.prec + priceExponent model : ℤ) / 10 ^ 6 :=
    div_lt_div_of_pos_right fits (by norm_num)
  have exponent : priceExponent model = 0 ∨ priceExponent model = -1 := by
    cases model <;> simp [priceExponent]
  rcases exponent with whole | tenths
  · have inRange : |price model tokensIn tokensOut| < 10 ^ (defaultContext.prec + sixPlaces : ℤ) := by
      rw [abs_of_nonneg size, costRange]
      rw [whole] at bound
      norm_num [defaultContext] at bound
      exact bound
    have onGrid := price_grid model tokensIn tokensOut whole
    obtain ⟨cost, returned, _⟩ := quantize_grid value (by decide) (by decide) onGrid inRange
    exact ⟨cost, returned⟩
  · apply quantize_ok value (by decide) (by decide)
    rw [abs_of_nonneg size]
    rw [tenths] at bound
    norm_num [defaultContext, sixPlaces] at bound ⊢
    exact bound

theorem estimate_error (small : Small model tokensIn tokensOut) :
    ∃ q, Priced model tokensIn tokensOut q ∧
      |q - price model tokensIn tokensOut| ≤ (10 : ℚ) ^ sixPlaces / 2 := by
  obtain ⟨units, units'⟩ := price_units model
  have fine : -10 ≤ priceExponent model ∧ priceExponent model ≤ 10 := by
    cases model <;> decide
  obtain ⟨quotient, value, estimate⟩ :=
    estimate_quotient units units' fine small.nonnegIn small.nonnegOut small.fits
  obtain ⟨cost, returned⟩ := quantized small value
  refine ⟨_, ⟨cost, estimate.trans returned, (quantize_hasValue value returned).1⟩, ?_⟩
  rw [abs_sub_comm]
  exact roundGrid_error (ten_zpow_pos sixPlaces) _

theorem priced_mono {a a' b b' : ℤ} {q q' : ℚ} (inLe : a ≤ a') (outLe : b ≤ b')
    (first : Priced model a b q) (second : Priced model a' b' q') : q ≤ q' := by
  obtain ⟨cost, returned, value⟩ := first
  obtain ⟨cost', returned', value'⟩ := second
  rw [value.unique (estimate_value returned).1, value'.unique (estimate_value returned').1]
  exact costValue_mono model inLe outLe

theorem price_add (model : ModelID) (a b a' b' : ℤ) :
    price model (a + a') (b + b') = price model a b + price model a' b' := by
  simp only [price, dueUnrounded]
  push_cast
  ring

/-- Two calls and the one call with all their tokens: each of the three estimates may
    be half a unit off. -/
theorem estimates_add {a b a' b' : ℤ} (small : Small model a b) (small' : Small model a' b')
    (both : Small model (a + a') (b + b')) :
    ∃ q q' sum, Priced model a b q ∧ Priced model a' b' q' ∧
      Priced model (a + a') (b + b') sum ∧ |q + q' - sum| ≤ 3 * ((10 : ℚ) ^ sixPlaces / 2) := by
  obtain ⟨q, first, error⟩ := estimate_error small
  obtain ⟨q', second, error'⟩ := estimate_error small'
  obtain ⟨sum, together, error''⟩ := estimate_error both
  refine ⟨q, q', sum, first, second, together, ?_⟩
  rw [price_add] at error''
  obtain ⟨low, high⟩ := abs_le.mp error
  obtain ⟨low', high'⟩ := abs_le.mp error'
  obtain ⟨low'', high''⟩ := abs_le.mp error''
  exact abs_le.mpr ⟨by linarith, by linarith⟩

end Estimates
end ModelRouter

namespace LlmClient
open AgentSchemas DecimalArithmetic Decimal Raising CashflowLedger ModelRouter

theorem admitCall_priced (cashflow : Option CashflowService) (systemState : String)
    (request : CallRequest) (budget : Option BudgetState) (rows : Ledger) :
    Ensures (admitCall cashflow systemState request budget) rows
      (fun admission _ => estimateCostUsd admission.model request.expectedTokensIn
        request.maxTokens = .ok admission.estCost)
      (fun _ _ => True) := by
  apply ensures_admitCall trivial
  apply ensures_mono ensures_outcome _ fun _ _ _ => trivial
  intro operating t _
  refine ⟨trivial, ?_⟩
  intro model estCost estimated
  exact ensures_mono ensures_outcome (fun _ _ _ => estimated) fun _ _ _ => trivial

structure Served (cashflow : Option CashflowService) (budget : Option BudgetState) (rows : Ledger)
    (i : Invocation) (admission : Admission) (tokensIn tokensOut : ℤ) : Prop where
  admitted : (outcome (admitCall cashflow i.systemState i.request budget) rows).1 = .ok admission
  replied : ∃ content, i.provider admission.model i.request.system i.request.user
    i.request.maxTokens = .ok (content, tokensIn, tokensOut)
  withinIn : tokensIn ≤ i.request.expectedTokensIn
  withinOut : tokensOut ≤ i.request.maxTokens

section Calls
variable (P : Platform) {cashflow : Option CashflowService} {budget : Option BudgetState}
  {rows : Ledger} {i : Invocation} {admission : Admission} {tokensIn tokensOut : ℤ}

theorem served_cost (served : Served cashflow budget rows i admission tokensIn tokensOut) {q : ℚ}
    (priced : Priced admission.model tokensIn tokensOut q) :
    ∃ response est,
      (outcome (call P cashflow i.systemState i.provider i.request budget) rows).1 =
        .ok response ∧
      response.costUsd.HasValue q ∧ admission.estCost.HasValue est ∧ q ≤ est := by
  have estimated := ensures_of_ok
    (admitCall_priced cashflow i.systemState i.request budget rows) served.admitted
  have estimate := (estimate_value estimated).1
  have least := priced_mono served.withinIn served.withinOut priced ⟨_, estimated, estimate⟩
  obtain ⟨cost, returned, value⟩ := priced
  obtain ⟨content, replied⟩ := served.replied
  obtain ⟨response, settled, billed⟩ := returns_of_ensures (settle_returns P cashflow
    (outcome (admitCall cashflow i.systemState i.request budget) rows).2 content returned)
  refine ⟨response, _, ?_, billed ▸ value, estimate, least⟩
  have started : outcome (admitCall cashflow i.systemState i.request budget) rows =
      (.ok admission, (outcome (admitCall cashflow i.systemState i.request budget) rows).2) :=
    Prod.ext served.admitted rfl
  unfold call
  rw [outcome_bind, started]
  dsimp only
  rw [outcome_bind, replied, outcome_attempt_ok]
  exact settled

end Calls

/-- Estimates are half a unit off at most, never fall when a token count rises and add up
    to within three such halves; so a call that stays within the tokens it announced never
    costs more than it was admitted with. -/
theorem estimates_bound_costs :
    (∀ model a b, Small model a b → ∃ q, Priced model a b q ∧
      |q - price model a b| ≤ 0.000001 / 2) ∧
    (∀ model a b a' b' q q', a ≤ a' → b ≤ b' → Priced model a b q → Priced model a' b' q' →
      q ≤ q') ∧
    (∀ model a b a' b', 0 ≤ a → 0 ≤ b → 0 ≤ a' → 0 ≤ b' → Small model (a + a') (b + b') →
      ∃ q q' sum, Priced model a b q ∧ Priced model a' b' q' ∧
        Priced model (a + a') (b + b') sum ∧ |q + q' - sum| ≤ 0.0000015) ∧
    ∀ (P : Platform) cashflow budget rows (i : Invocation) admission tokensIn tokensOut,
      Small admission.model i.request.expectedTokensIn i.request.maxTokens →
      0 ≤ tokensIn → 0 ≤ tokensOut →
      Served cashflow budget rows i admission tokensIn tokensOut →
      ∃ response cost est,
        (outcome (call P cashflow i.systemState i.provider i.request budget) rows).1 =
          .ok response ∧
        response.costUsd.HasValue cost ∧ admission.estCost.HasValue est ∧ cost ≤ est := by
  have unit : (10 : ℚ) ^ sixPlaces = 0.000001 := by norm_num [sixPlaces]
  refine ⟨?_, ?_, ?_, ?_⟩
  · intro model a b small
    rw [← unit]
    exact estimate_error small
  · intro model a b a' b' q q' inLe outLe first second
    exact priced_mono inLe outLe first second
  · intro model a b a' b' nonneg nonneg' more more' both
    have halves : (0.0000015 : ℚ) = 3 * ((10 : ℚ) ^ sixPlaces / 2) := by norm_num [unit]
    rw [halves]
    exact estimates_add (both.mono nonneg nonneg' (by omega) (by omega))
      (both.mono more more' (by omega) (by omega)) both
  · intro P cashflow budget rows i admission tokensIn tokensOut small nonneg nonneg' served
    obtain ⟨q, priced, _⟩ :=
      estimate_error (small.mono nonneg nonneg' served.withinIn served.withinOut)
    obtain ⟨response, est, returned, billed, estimate, least⟩ := served_cost P served priced
    exact ⟨response, q, est, returned, billed, estimate, least⟩

def bulkCall : Invocation where
  systemState := "normal"
  provider := fun _ _ _ _ => .ok ("", 14, 0)
  request := ⟨.mother, .bulkClassify, "", "", 0, 15⟩

theorem bulk_estimates :
    (∃ q, Priced .geminiFlashLite25 5 0 q ∧
      |q - price .geminiFlashLite25 5 0| ≤ 0.000001 / 2) ∧
    (0 : ℚ) ≤ 0.000002 ∧
    (∃ q q' sum, Priced .geminiFlashLite25 5 0 q ∧ Priced .geminiFlashLite25 15 0 q' ∧
      Priced .geminiFlashLite25 (5 + 15) (0 + 0) sum ∧ |q + q' - sum| ≤ 0.0000015) ∧
    ∃ response cost est,
      (outcome (call runnablePlatform none bulkCall.systemState bulkCall.provider bulkCall.request
        none) []).1 = .ok response ∧
      response.costUsd.HasValue cost ∧ (Decimal.finite ⟨false, 2, -6⟩).HasValue est ∧
      cost ≤ est := by
  obtain ⟨error, mono, add, within⟩ := estimates_bound_costs
  have few : ∀ a : ℤ, 0 ≤ a → a ≤ 20 → Small .geminiFlashLite25 a 0 := by
    intro a nonneg le
    have counted : (a : ℚ) ≤ 20 := by exact_mod_cast le
    refine ⟨nonneg, le_rfl, ?_⟩
    norm_num [dueUnrounded, priceIn, defaultContext, priceExponent]
    linarith
  have five : Priced .geminiFlashLite25 5 0 0 :=
    ⟨.finite ⟨false, 0, -6⟩, by decide +kernel, _, rfl, by decide +kernel⟩
  have fifteen : Priced .geminiFlashLite25 15 0 0.000002 :=
    ⟨.finite ⟨false, 2, -6⟩, by decide +kernel, _, rfl, by decide +kernel⟩
  have admitted : (outcome (admitCall none bulkCall.systemState bulkCall.request none) []).1 =
      .ok ⟨.geminiFlashLite25, .finite ⟨false, 2, -6⟩⟩ := by decide +kernel
  exact ⟨error _ 5 0 (few 5 (by omega) (by omega)),
    mono _ 5 0 15 0 _ _ (by omega) (by omega) five fifteen,
    add _ 5 0 15 0 (by omega) (by omega) (by omega) (by omega) (few 20 (by omega) (by omega)),
    within runnablePlatform none none [] bulkCall _ 14 0 (few 15 (by omega) (by omega))
      (by omega) (by omega) ⟨admitted, ⟨_, rfl⟩, by decide, by decide⟩⟩

end LlmClient
