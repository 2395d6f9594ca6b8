import AgentEcosystem.Decimal.HasValue
import AgentEcosystem.Schemas
import AgentEcosystem.Semantics.Raising

/-!
Model choice and price of a call. The price is an amount with six decimals, and
it never falls when a token count rises.
-/
namespace ModelRouter
open AgentSchemas DecimalArithmetic NearestRounding Decimal Raising

def priceTable : ModelID → Decimal × Decimal
  | .opus47 => (.finite ⟨false, 500, -2⟩, .finite ⟨false, 2500, -2⟩)
  | .sonnet46 => (.finite ⟨false, 300, -2⟩, .finite ⟨false, 1500, -2⟩)
  | .haiku45 => (.finite ⟨false, 100, -2⟩, .finite ⟨false, 500, -2⟩)
  | .geminiFlashLite25 => (.finite ⟨false, 10, -2⟩, .finite ⟨false, 40, -2⟩)

def operatingLowWaterMarkUsd : Decimal := .ofNat 100

def route (agent : AgentTier) (task : TaskKind) (operatingPotUsd : Decimal) :
    Except Signal ModelID :=
  match agent with
  | .ethicsAuditor => .ok .opus47
  | .codeBuilder => .ok .haiku45
  | .mother | .child => do
    if ← operatingPotUsd.lt operatingLowWaterMarkUsd then return .haiku45
    match task with
    | .proposeVertical | .debugChild => return .opus47
    | .bulkClassify => return .geminiFlashLite25
    | .generic => return .sonnet46

/-- The exponent of `Decimal("0.000001")`. -/
def sixPlaces : ℤ := -6

def estimateCostUsd (model : ModelID) (tokensIn tokensOut : ℤ) : Except Signal Decimal := do
  let (priceIn, priceOut) := priceTable model
  let costIn ← (Decimal.ofInt tokensIn).mul defaultContext priceIn
  let costOut ← (Decimal.ofInt tokensOut).mul defaultContext priceOut
  let cost ← costIn.add defaultContext costOut
  (← cost.div defaultContext (.ofNat 1000000)).quantize defaultContext sixPlaces

def priceIn : ModelID → ℚ
  | .opus47 => 5
  | .sonnet46 => 3
  | .haiku45 => 1
  | .geminiFlashLite25 => 1 / 10

def priceOut : ModelID → ℚ
  | .opus47 => 25
  | .sonnet46 => 15
  | .haiku45 => 5
  | .geminiFlashLite25 => 2 / 5

theorem priceTable_value (model : ModelID) :
    (priceTable model).1.HasValue (priceIn model) ∧
      (priceTable model).2.HasValue (priceOut model) := by
  cases model <;> exact ⟨⟨_, rfl, by decide +kernel⟩, ⟨_, rfl, by decide +kernel⟩⟩

def costValue (model : ModelID) (tokensIn tokensOut : ℤ) : ℚ :=
  roundGrid ((10 : ℚ) ^ sixPlaces) (defaultContext.round (defaultContext.round
    (defaultContext.round (tokensIn * priceIn model) +
      defaultContext.round (tokensOut * priceOut model)) / 10 ^ 6))

theorem hasValue_ofInt (n : ℤ) : (Decimal.ofInt n).HasValue n := by
  refine ⟨.ofInt n, rfl, ?_⟩
  rcases lt_or_ge n 0 with neg | nonneg
  · have abs : ((n.natAbs : ℤ) : ℚ) = ((-n : ℤ) : ℚ) := by
      congr 1
      omega
    simp only [FiniteDecimal.ofInt, FiniteDecimal.toRat, FiniteDecimal.signed, neg, decide_true,
      if_true, zpow_zero, mul_one, Int.cast_neg, abs, neg_neg]
  · have abs : (n.natAbs : ℤ) = n := by omega
    simp [FiniteDecimal.ofInt, FiniteDecimal.toRat, FiniteDecimal.signed, not_lt.mpr nonneg, abs]

theorem costRange : (10 : ℚ) ^ (defaultContext.prec + sixPlaces : ℤ) = 10 ^ 22 := by
  norm_num [defaultContext, sixPlaces]

/-- An estimate carries its value and stays within the precision at six decimals. -/
theorem estimate_value {model : ModelID} {tokensIn tokensOut : ℤ} {cost : Decimal}
    (h : estimateCostUsd model tokensIn tokensOut = .ok cost) :
    cost.HasValue (costValue model tokensIn tokensOut) ∧
      |costValue model tokensIn tokensOut| < 10 ^ 22 := by
  obtain ⟨priceInValue, priceOutValue⟩ := priceTable_value model
  obtain ⟨costIn, multiplied, h⟩ := ok_of_bind h
  have hIn := mul_hasValue (hasValue_ofInt tokensIn) priceInValue multiplied
  obtain ⟨costOut, multiplied, h⟩ := ok_of_bind h
  have hOut := mul_hasValue (hasValue_ofInt tokensOut) priceOutValue multiplied
  obtain ⟨sum, added, h⟩ := ok_of_bind h
  obtain ⟨quotient, divided, quantized⟩ := ok_of_bind h
  obtain ⟨x, rfl, total, short⟩ := add_short hIn hOut added
  have value := div_pow_hasValue (k := 6) short divided
  rw [total] at value
  obtain ⟨has, bound⟩ := quantize_hasValue value quantized
  rw [costRange] at bound
  exact ⟨has, bound⟩

theorem price_nonneg (model : ModelID) : 0 ≤ priceIn model ∧ 0 ≤ priceOut model := by
  cases model <;> norm_num [priceIn, priceOut]

theorem costValue_mono (model : ModelID) {a a' b b' : ℤ} (inLe : a ≤ a') (outLe : b ≤ b') :
    costValue model a b ≤ costValue model a' b' := by
  obtain ⟨priceInNonneg, priceOutNonneg⟩ := price_nonneg model
  have costIn : (a : ℚ) * priceIn model ≤ a' * priceIn model :=
    mul_le_mul_of_nonneg_right (by exact_mod_cast inLe) priceInNonneg
  have costOut : (b : ℚ) * priceOut model ≤ b' * priceOut model :=
    mul_le_mul_of_nonneg_right (by exact_mod_cast outLe) priceOutNonneg
  have sum := add_le_add (defaultContext.round_mono costIn) (defaultContext.round_mono costOut)
  have quotient := div_le_div_of_nonneg_right (defaultContext.round_mono sum)
    (by norm_num : (0 : ℚ) ≤ 10 ^ 6)
  exact (gridRounding _ (ten_zpow_pos sixPlaces)).round_mono (defaultContext.round_mono quotient)

theorem costValue_representable {model : ModelID} {tokensIn tokensOut : ℤ}
    (small : |costValue model tokensIn tokensOut| < 10 ^ 22) :
    costValue model tokensIn tokensOut ∈ defaultContext.Representable := by
  apply defaultContext.representable_of_grid (e := sixPlaces) (by decide) (roundGrid_mem _ _)
  rw [costRange]
  exact small

end ModelRouter
