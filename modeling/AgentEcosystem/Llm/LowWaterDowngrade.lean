import AgentEcosystem.Llm.ModelRouter

/-!
What the low-water mark does to the price of a call. Below the mark every call of
the mother and her children goes to one model, which is cheaper than those it
replaces but for the model of bulk work: that one costs a tenth of it.
-/
namespace ModelRouter
open AgentSchemas DecimalArithmetic NearestRounding Decimal Raising

def routedCost (agent : AgentTier) (task : TaskKind) (operatingPotUsd : Decimal)
    (tokensIn tokensOut : ℤ) : Except Signal Decimal := do
  estimateCostUsd (← route agent task operatingPotUsd) tokensIn tokensOut

def NeverDearer (agent : AgentTier) (task : TaskKind) (p q : Decimal) (tokensIn tokensOut : ℤ) :
    Prop :=
  ∀ c d, routedCost agent task p tokensIn tokensOut = .ok c →
    routedCost agent task q tokensIn tokensOut = .ok d → c.le d = .ok true

/-- The mark takes bulk work from the model that serves it, and the estimate of
    the other model is within the range of the context. -/
structure MarkRaises (agent : AgentTier) (task : TaskKind) (p q : Decimal)
    (tokensIn tokensOut : ℤ) : Prop where
  routedByPot : agent = .mother ∨ agent = .child
  bulk : task = .bulkClassify
  low : p.lt operatingLowWaterMarkUsd = .ok true
  high : q.lt operatingLowWaterMarkUsd = .ok false
  tokens : 0 < tokensIn + tokensOut
  inRange : tokensIn + 5 * tokensOut < 10 ^ 28

def modelAbove : TaskKind → ModelID
  | .proposeVertical | .debugChild => .opus47
  | .bulkClassify => .geminiFlashLite25
  | .generic => .sonnet46

section Routes
variable {agent : AgentTier} {task : TaskKind} {p q : Decimal}

theorem route_below (byPot : agent = .mother ∨ agent = .child)
    (low : p.lt operatingLowWaterMarkUsd = .ok true) : route agent task p = .ok .haiku45 := by
  rcases byPot with rfl | rfl
  · simp only [route, low]
    rfl
  · simp only [route, low]
    rfl

theorem route_above (byPot : agent = .mother ∨ agent = .child)
    (high : p.lt operatingLowWaterMarkUsd = .ok false) :
    route agent task p = .ok (modelAbove task) := by
  rcases byPot with rfl | rfl
  · simp only [route, high]
    cases task <;> rfl
  · simp only [route, high]
    cases task <;> rfl

theorem side_of_le (le : p.le q = .ok true) :
    (p.lt operatingLowWaterMarkUsd = .ok true ∧ q.lt operatingLowWaterMarkUsd = .ok true) ∨
      (p.lt operatingLowWaterMarkUsd = .ok true ∧ q.lt operatingLowWaterMarkUsd = .ok false) ∨
      (p.lt operatingLowWaterMarkUsd = .ok false ∧ q.lt operatingLowWaterMarkUsd = .ok false) := by
  have numbers : (p.isNaN || q.isNaN) = false := le_ok_iff.mp ⟨true, le⟩
  obtain ⟨numberP, numberQ⟩ := Bool.or_eq_false_iff.mp numbers
  have number : operatingLowWaterMarkUsd.isNaN = false := rfl
  obtain ⟨b, sideP⟩ : ∃ b, p.lt operatingLowWaterMarkUsd = .ok b :=
    lt_ok_iff.mpr (by rw [numberP, number]; rfl)
  obtain ⟨c, sideQ⟩ : ∃ c, q.lt operatingLowWaterMarkUsd = .ok c :=
    lt_ok_iff.mpr (by rw [numberQ, number]; rfl)
  have ordered : c = true → b = true := by
    rintro rfl
    have value := hasValue_ofNat 100
    cases p with
    | nan => cases numberP
    | infinity s =>
      cases s with
      | true =>
        cases sideP
        rfl
      | false =>
        cases q with
        | nan => cases numberQ
        | finite y => cases le
        | infinity t =>
          cases t with
          | true => cases le
          | false => cases sideQ
    | finite x =>
      cases q with
      | nan => cases numberQ
      | infinity t =>
        cases t with
        | true => cases le
        | false => cases sideQ
      | finite y =>
        rw [le_hasValue (hasValue_finite x) (hasValue_finite y)] at le
        rw [operatingLowWaterMarkUsd, lt_hasValue (hasValue_finite y) value] at sideQ
        rw [operatingLowWaterMarkUsd, lt_hasValue (hasValue_finite x) value] at sideP
        have below : x.toRat ≤ y.toRat := of_decide_eq_true (Except.ok.inj le)
        have low := of_decide_eq_true (Except.ok.inj sideQ)
        cases sideP
        exact decide_eq_true (below.trans_lt low)
  rw [sideP, sideQ]
  cases b with
  | true =>
    cases c with
    | true => exact .inl ⟨rfl, rfl⟩
    | false => exact .inr (.inl ⟨rfl, rfl⟩)
  | false =>
    cases c with
    | true => cases ordered rfl
    | false => exact .inr (.inr ⟨rfl, rfl⟩)

end Routes

section Prices
variable {model model' : ModelID} {tokensIn tokensOut : ℤ} {c d : Decimal}

theorem costValue_price (nonneg : 0 ≤ tokensIn) (nonneg' : 0 ≤ tokensOut)
    (inLe : priceIn model ≤ priceIn model') (outLe : priceOut model ≤ priceOut model') :
    costValue model tokensIn tokensOut ≤ costValue model' tokensIn tokensOut := by
  have costIn : (tokensIn : ℚ) * priceIn model ≤ tokensIn * priceIn model' :=
    mul_le_mul_of_nonneg_left inLe (by exact_mod_cast nonneg)
  have costOut : (tokensOut : ℚ) * priceOut model ≤ tokensOut * priceOut model' :=
    mul_le_mul_of_nonneg_left outLe (by exact_mod_cast nonneg')
  have sum := add_le_add (defaultContext.round_mono costIn) (defaultContext.round_mono costOut)
  have quotient := div_le_div_of_nonneg_right (defaultContext.round_mono sum)
    (by norm_num : (0 : ℚ) ≤ 10 ^ 6)
  exact (gridRounding _ (ten_zpow_pos sixPlaces)).round_mono (defaultContext.round_mono quotient)

theorem estimates_le_iff (first : estimateCostUsd model tokensIn tokensOut = .ok c)
    (second : estimateCostUsd model' tokensIn tokensOut = .ok d) : c.le d = .ok true ↔
      costValue model tokensIn tokensOut ≤ costValue model' tokensIn tokensOut := by
  rw [le_hasValue (estimate_value first).1 (estimate_value second).1]
  simp

/- Every model but the one for bulk work costs at least as much as the one below the mark. -/
theorem haiku_least {task : TaskKind} (other : task ≠ .bulkClassify) :
    priceIn .haiku45 ≤ priceIn (modelAbove task) ∧
      priceOut .haiku45 ≤ priceOut (modelAbove task) := by
  cases task with
  | bulkClassify => exact absurd rfl other
  | proposeVertical => norm_num [modelAbove, priceIn, priceOut]
  | debugChild => norm_num [modelAbove, priceIn, priceOut]
  | generic => norm_num [modelAbove, priceIn, priceOut]

def dueUnrounded (model : ModelID) (tokensIn tokensOut : ℤ) : ℚ :=
  tokensIn * priceIn model + tokensOut * priceOut model

theorem estimate_quotient {k : ℤ} (units : priceIn model ∈ Grid ((10 : ℚ) ^ k))
    (units' : priceOut model ∈ Grid ((10 : ℚ) ^ k)) (fine : -10 ≤ k ∧ k ≤ 10)
    (nonneg : 0 ≤ tokensIn) (nonneg' : 0 ≤ tokensOut)
    (small : dueUnrounded model tokensIn tokensOut < 10 ^ (defaultContext.prec + k : ℤ)) :
    ∃ quotient : Decimal, quotient.HasValue (dueUnrounded model tokensIn tokensOut / 10 ^ 6) ∧
      estimateCostUsd model tokensIn tokensOut = quotient.quantize defaultContext sixPlaces := by
  obtain ⟨low, high⟩ := fine
  have tiny : defaultContext.etiny = -1000026 := by decide
  have emax : defaultContext.emax = 999999 := rfl
  have prec : defaultContext.prec = 28 := rfl
  have inRange : (10 : ℚ) ^ (defaultContext.prec + k : ℤ) ≤ 10 ^ defaultContext.emax :=
    ten_zpow_le (by omega)
  obtain ⟨priceInNonneg, priceOutNonneg⟩ := price_nonneg model
  obtain ⟨priceInValue, priceOutValue⟩ := priceTable_value model
  have dueIn : 0 ≤ (tokensIn : ℚ) * priceIn model :=
    mul_nonneg (by exact_mod_cast nonneg) priceInNonneg
  have dueOut : 0 ≤ (tokensOut : ℚ) * priceOut model :=
    mul_nonneg (by exact_mod_cast nonneg') priceOutNonneg
  have gridIn : (tokensIn : ℚ) * priceIn model ∈ Grid ((10 : ℚ) ^ k) := by
    obtain ⟨m, value⟩ := units
    exact ⟨tokensIn * m, by rw [value]; push_cast; ring⟩
  have gridOut : (tokensOut : ℚ) * priceOut model ∈ Grid ((10 : ℚ) ^ k) := by
    obtain ⟨m, value⟩ := units'
    exact ⟨tokensOut * m, by rw [value]; push_cast; ring⟩
  have kept : ∀ x ∈ Grid ((10 : ℚ) ^ k), 0 ≤ x → x ≤ dueUnrounded model tokensIn tokensOut →
      |x| < 10 ^ defaultContext.emax ∧ defaultContext.round x = x := by
    intro x onGrid pos le
    have size : |x| < 10 ^ (defaultContext.prec + k : ℤ) := by
      rw [abs_of_nonneg pos]
      exact le.trans_lt small
    exact ⟨size.trans_le inRange, defaultContext.round_of_grid (by omega) onGrid size⟩
  obtain ⟨rangeIn, sameIn⟩ := kept _ gridIn dueIn (by simp only [dueUnrounded]; linarith)
  obtain ⟨rangeOut, sameOut⟩ := kept _ gridOut dueOut (by simp only [dueUnrounded]; linarith)
  obtain ⟨rangeSum, sameSum⟩ := kept (dueUnrounded model tokensIn tokensOut)
    (grid_add gridIn gridOut) (by simp only [dueUnrounded]; linarith) le_rfl
  obtain ⟨costIn, multiplied, hasIn⟩ := mul_ok (hasValue_ofInt tokensIn) priceInValue rangeIn
  obtain ⟨costOut, multiplied', hasOut⟩ := mul_ok (hasValue_ofInt tokensOut) priceOutValue rangeOut
  rw [sameIn] at hasIn
  rw [sameOut] at hasOut
  obtain ⟨sum, added, _⟩ := add_ok hasIn hasOut rangeSum
  obtain ⟨x, rfl, total, short⟩ := add_short hasIn hasOut added
  have due : x.toRat = dueUnrounded model tokensIn tokensOut := total.trans sameSum
  have shifted : dueUnrounded model tokensIn tokensOut / 10 ^ 6 ∈ Grid ((10 : ℚ) ^ (k - 6)) := by
    obtain ⟨m, value⟩ := grid_add gridIn gridOut
    refine ⟨m, ?_⟩
    rw [dueUnrounded, value, sub_eq_add_neg, ten_zpow_add]
    norm_num
    ring
  have fewer : |dueUnrounded model tokensIn tokensOut / 10 ^ 6| <
      10 ^ (defaultContext.prec + (k - 6) : ℤ) := by
    have power : (10 : ℚ) ^ (defaultContext.prec + (k - 6) : ℤ) =
        10 ^ (defaultContext.prec + k : ℤ) / 10 ^ 6 := by
      rw [show (defaultContext.prec + (k - 6) : ℤ) = defaultContext.prec + k + -6 by ring,
        ten_zpow_add]
      norm_num
      ring
    rw [power, abs_of_nonneg (div_nonneg (by simp only [dueUnrounded]; linarith) (by norm_num))]
    exact div_lt_div_of_pos_right small (by norm_num)
  have range : |x.toRat / 10 ^ 6| < 10 ^ defaultContext.emax := by
    rw [due]
    exact fewer.trans_le (ten_zpow_le (by omega))
  obtain ⟨quotient, divided, has⟩ := div_pow_ok (k := 6) short range
  rw [due, defaultContext.round_of_grid (by omega) shifted fewer] at has
  refine ⟨quotient, has, ?_⟩
  have million : Decimal.ofNat 1000000 = .ofNat (10 ^ 6) := rfl
  simp only [estimateCostUsd, multiplied, multiplied', added, million, divided, bind, Except.bind]

theorem dueUnrounded_haiku (tokensIn tokensOut : ℤ) :
    dueUnrounded .haiku45 tokensIn tokensOut = ((tokensIn + 5 * tokensOut : ℤ) : ℚ) := by
  simp only [dueUnrounded, priceIn, priceOut]
  push_cast
  ring

theorem haiku_returns (nonneg : 0 ≤ tokensIn) (nonneg' : 0 ≤ tokensOut)
    (inRange : tokensIn + 5 * tokensOut < 10 ^ 28) :
    ∃ c, estimateCostUsd .haiku45 tokensIn tokensOut = .ok c ∧
      c.HasValue ((tokensIn + 5 * tokensOut : ℤ) / 10 ^ 6) := by
  have small : dueUnrounded .haiku45 tokensIn tokensOut < 10 ^ (defaultContext.prec + 0 : ℤ) := by
    rw [dueUnrounded_haiku]
    norm_num [defaultContext]
    exact_mod_cast inRange
  have units : priceIn .haiku45 ∈ Grid ((10 : ℚ) ^ (0 : ℤ)) := ⟨1, by norm_num [priceIn]⟩
  have units' : priceOut .haiku45 ∈ Grid ((10 : ℚ) ^ (0 : ℤ)) := ⟨5, by norm_num [priceOut]⟩
  obtain ⟨quotient, has, estimate⟩ :=
    estimate_quotient units units' (by omega) nonneg nonneg' small
  rw [dueUnrounded_haiku] at has
  have onGrid : ((tokensIn + 5 * tokensOut : ℤ) : ℚ) / 10 ^ 6 ∈ Grid ((10 : ℚ) ^ sixPlaces) :=
    ⟨tokensIn + 5 * tokensOut, by norm_num [sixPlaces]; ring⟩
  rw [estimate]
  apply quantize_grid has (by decide) (by decide) onGrid
  rw [costRange, abs_of_nonneg (div_nonneg (by exact_mod_cast (by omega)) (by norm_num)),
    div_lt_iff₀ (by norm_num)]
  exact_mod_cast (by omega : tokensIn + 5 * tokensOut < 10 ^ 22 * 10 ^ 6)

/- Ten tokens of bulk work cost what one costs below the mark, and rounding adds
   no more than half a unit. -/
theorem gemini_returns (nonneg : 0 ≤ tokensIn) (nonneg' : 0 ≤ tokensOut)
    (tokens : 0 < tokensIn + tokensOut) (inRange : tokensIn + 5 * tokensOut < 10 ^ 28) :
    ∃ d v, estimateCostUsd .geminiFlashLite25 tokensIn tokensOut = .ok d ∧ d.HasValue v ∧
      v < (tokensIn + 5 * tokensOut : ℤ) / 10 ^ 6 := by
  have due : dueUnrounded .geminiFlashLite25 tokensIn tokensOut =
      ((tokensIn + 4 * tokensOut : ℤ) : ℚ) / 10 := by
    simp only [dueUnrounded, priceIn, priceOut]
    push_cast
    ring
  have fewer : ((tokensIn + 4 * tokensOut : ℤ) : ℚ) < 10 ^ 28 := by
    exact_mod_cast (by omega : tokensIn + 4 * tokensOut < 10 ^ 28)
  have some_token : (0 : ℚ) ≤ ((tokensIn + 4 * tokensOut : ℤ) : ℚ) := by
    exact_mod_cast (by omega : 0 ≤ tokensIn + 4 * tokensOut)
  have small : dueUnrounded .geminiFlashLite25 tokensIn tokensOut <
      10 ^ (defaultContext.prec + -1 : ℤ) := by
    rw [due]
    norm_num [defaultContext] at fewer ⊢
    linarith
  have units : priceIn .geminiFlashLite25 ∈ Grid ((10 : ℚ) ^ (-1 : ℤ)) :=
    ⟨1, by norm_num [priceIn]⟩
  have units' : priceOut .geminiFlashLite25 ∈ Grid ((10 : ℚ) ^ (-1 : ℤ)) :=
    ⟨4, by norm_num [priceOut]⟩
  obtain ⟨quotient, has, estimate⟩ :=
    estimate_quotient units units' (by omega) nonneg nonneg' small
  rw [due] at has
  obtain ⟨d, quantized⟩ : ∃ d, quotient.quantize defaultContext sixPlaces = .ok d := by
    apply quantize_ok has (by decide) (by decide)
    rw [abs_of_nonneg (by positivity)]
    norm_num [defaultContext, sixPlaces] at fewer ⊢
    linarith
  refine ⟨d, _, estimate.trans quantized, (quantize_hasValue has quantized).1, ?_⟩
  have error := abs_le.mp (roundGrid_error (ten_zpow_pos sixPlaces)
    (((tokensIn + 4 * tokensOut : ℤ) : ℚ) / 10 / 10 ^ 6))
  have more : ((tokensIn + 4 * tokensOut : ℤ) : ℚ) + 5 <
      10 * ((tokensIn + 5 * tokensOut : ℤ) : ℚ) := by
    exact_mod_cast (by omega : tokensIn + 4 * tokensOut + 5 < 10 * (tokensIn + 5 * tokensOut))
  norm_num [sixPlaces] at error more ⊢
  linarith

theorem haiku_inRange (estimated : estimateCostUsd .haiku45 tokensIn tokensOut = .ok c)
    (nonneg : 0 ≤ tokensIn) (nonneg' : 0 ≤ tokensOut) : tokensIn + 5 * tokensOut < 10 ^ 28 := by
  by_contra large
  have limit : (10 ^ 28 : ℚ) ∈ defaultContext.Representable :=
    ⟨1, 28, by decide, by decide, by norm_num⟩
  have limit' : (10 ^ 22 : ℚ) ∈ defaultContext.Representable :=
    ⟨1, 22, by decide, by decide, by norm_num⟩
  have whole : ∀ n : ℤ, 0 ≤ n → n < 10 ^ 28 → defaultContext.round (n : ℚ) = n := by
    intro n pos below
    apply defaultContext.round_of_grid (e := 0) (by decide) ⟨n, by simp⟩
    rw [abs_of_nonneg (by exact_mod_cast pos)]
    norm_num [defaultContext]
    exact_mod_cast below
  have rounded : ∀ n : ℤ, 0 ≤ n → (10 ^ 28 ≤ n → (10 ^ 28 : ℚ) ≤ defaultContext.round n) ∧
      0 ≤ defaultContext.round (n : ℚ) := by
    intro n pos
    constructor
    · intro above
      exact defaultContext.rounding.le_round limit (by exact_mod_cast above)
    · exact defaultContext.rounding.le_round ⟨0, 0, by decide, by decide, by simp⟩
        (by exact_mod_cast pos)
  have sum : (10 ^ 28 : ℚ) ≤
      defaultContext.round tokensIn + defaultContext.round ((5 * tokensOut : ℤ) : ℚ) := by
    obtain ⟨largeIn, posIn⟩ := rounded tokensIn nonneg
    obtain ⟨largeOut, posOut⟩ := rounded (5 * tokensOut) (by omega)
    by_cases first : 10 ^ 28 ≤ tokensIn
    · linarith [largeIn first]
    · by_cases second : 10 ^ 28 ≤ 5 * tokensOut
      · linarith [largeOut second]
      · rw [whole _ nonneg (by omega), whole _ (by omega) (by omega)]
        exact_mod_cast (by omega : 10 ^ 28 ≤ tokensIn + 5 * tokensOut)
  have quotient : (10 ^ 22 : ℚ) ≤ defaultContext.round (defaultContext.round
      (defaultContext.round tokensIn + defaultContext.round ((5 * tokensOut : ℤ) : ℚ)) / 10 ^ 6) := by
    apply defaultContext.rounding.le_round limit'
    have total : (10 ^ 28 : ℚ) ≤ defaultContext.round _ :=
      defaultContext.rounding.le_round limit sum
    rw [le_div_iff₀ (by norm_num)]
    linarith
  have bound := (abs_lt.mp (estimate_value estimated).2).2
  have onGrid : (10 ^ 22 : ℚ) ∈ Grid ((10 : ℚ) ^ sixPlaces) :=
    ⟨10 ^ 28, by norm_num [sixPlaces]⟩
  have cost : costValue .haiku45 tokensIn tokensOut = roundGrid ((10 : ℚ) ^ sixPlaces)
      (defaultContext.round (defaultContext.round (defaultContext.round tokensIn +
        defaultContext.round ((5 * tokensOut : ℤ) : ℚ)) / 10 ^ 6)) := by
    simp only [costValue, priceIn, priceOut, mul_one]
    push_cast
    rw [mul_comm (tokensOut : ℚ) 5]
  have kept := (gridRounding _ (ten_zpow_pos sixPlaces)).le_round onGrid quotient
  change (10 ^ 22 : ℚ) ≤ roundGrid _ _ at kept
  rw [← cost] at kept
  linarith

end Prices

section Downgrade
variable {agent : AgentTier} {task : TaskKind} {p q : Decimal} {tokensIn tokensOut : ℤ}
  {model model' : ModelID}

theorem routedCost_eq (routed : route agent task p = .ok model) :
    routedCost agent task p tokensIn tokensOut = estimateCostUsd model tokensIn tokensOut := by
  rw [routedCost, routed]
  rfl

theorem neverDearer_of_routes (first : route agent task p = .ok model)
    (second : route agent task q = .ok model')
    (cheaper : costValue model tokensIn tokensOut ≤ costValue model' tokensIn tokensOut) :
    NeverDearer agent task p q tokensIn tokensOut := by
  intro c d estimated estimated'
  rw [routedCost_eq first] at estimated
  rw [routedCost_eq second] at estimated'
  exact (estimates_le_iff estimated estimated').mpr cheaper

theorem markRaises_dearer (raises : MarkRaises agent task p q tokensIn tokensOut)
    (nonneg : 0 ≤ tokensIn) (nonneg' : 0 ≤ tokensOut) :
    ¬ NeverDearer agent task p q tokensIn tokensOut := by
  intro never
  obtain ⟨byPot, rfl, low, high, tokens, inRange⟩ := raises
  obtain ⟨c, estimated, has⟩ := haiku_returns nonneg nonneg' inRange
  obtain ⟨d, v, estimated', has', cheap⟩ := gemini_returns nonneg nonneg' tokens inRange
  have ordered := never c d ((routedCost_eq (route_below byPot low)).trans estimated)
    ((routedCost_eq (route_above byPot high)).trans estimated')
  rw [le_hasValue has has'] at ordered
  exact absurd (of_decide_eq_true (Except.ok.inj ordered)) (not_le.mpr cheap)

/- Bulk work that the mark makes dearer is all that is left when the costs are not ordered. -/
theorem bulk_cases (byPot : agent = .mother ∨ agent = .child)
    (low : p.lt operatingLowWaterMarkUsd = .ok true)
    (high : q.lt operatingLowWaterMarkUsd = .ok false) (nonneg : 0 ≤ tokensIn)
    (nonneg' : 0 ≤ tokensOut) (spared : ¬ MarkRaises agent .bulkClassify p q tokensIn tokensOut) :
    NeverDearer agent .bulkClassify p q tokensIn tokensOut := by
  intro c d estimated estimated'
  rw [routedCost_eq (route_below byPot low)] at estimated
  have inRange := haiku_inRange estimated nonneg nonneg'
  by_cases tokens : 0 < tokensIn + tokensOut
  · exact absurd ⟨byPot, rfl, low, high, tokens, inRange⟩ spared
  · obtain rfl : tokensIn = 0 := by omega
    obtain rfl : tokensOut = 0 := by omega
    rw [routedCost_eq (route_above byPot high)] at estimated'
    apply (estimates_le_iff estimated estimated').mpr
    simp [costValue]

end Downgrade

/-- The smaller balance never makes a call dearer, but for bulk work that the mark
    takes away from its own model. -/
theorem downgrade_saves_iff (agent : AgentTier) (task : TaskKind) {p q : Decimal}
    (le : p.le q = .ok true) {tokensIn tokensOut : ℤ} (nonneg : 0 ≤ tokensIn)
    (nonneg' : 0 ≤ tokensOut) :
    NeverDearer agent task p q tokensIn tokensOut ↔
      ¬ MarkRaises agent task p q tokensIn tokensOut := by
  constructor
  · intro never raises
    exact markRaises_dearer raises nonneg nonneg' never
  · intro spared
    by_cases byPot : agent = .mother ∨ agent = .child
    · rcases side_of_le le with ⟨low, low'⟩ | ⟨low, high⟩ | ⟨high, high'⟩
      · exact neverDearer_of_routes (route_below byPot low) (route_below byPot low') le_rfl
      · by_cases bulk : task = .bulkClassify
        · subst bulk
          exact bulk_cases byPot low high nonneg nonneg' spared
        · obtain ⟨inLe, outLe⟩ := haiku_least bulk
          exact neverDearer_of_routes (route_below byPot low) (route_above byPot high)
            (costValue_price nonneg nonneg' inLe outLe)
      · exact neverDearer_of_routes (route_above byPot high) (route_above byPot high') le_rfl
    · cases agent with
      | mother => exact absurd (.inl rfl) byPot
      | child => exact absurd (.inr rfl) byPot
      | ethicsAuditor =>
        have routed : ∀ r, route .ethicsAuditor task r = .ok .opus47 := fun _ => rfl
        exact neverDearer_of_routes (routed p) (routed q) le_rfl
      | codeBuilder =>
        have routed : ∀ r, route .codeBuilder task r = .ok .haiku45 := fun _ => rfl
        exact neverDearer_of_routes (routed p) (routed q) le_rfl

theorem downgraded_proposal_saves :
    NeverDearer .mother .proposeVertical (.ofNat 99) (.ofNat 500) 1000 500 := by
  apply (downgrade_saves_iff .mother .proposeVertical (by decide) (by decide) (by decide)).mpr
  intro raises
  cases raises.bulk

/-- Bulk work costs a cent at 99 that costs a thousandth of a dollar at 100. -/
theorem downgraded_bulk_costs_more :
    ¬ NeverDearer .mother .bulkClassify (.ofNat 99) (.ofNat 100) 10000 0 := by
  intro never
  have ordered := never _ _ (by decide +kernel : routedCost .mother .bulkClassify (.ofNat 99)
    10000 0 = .ok (.finite ⟨false, 10000, -6⟩)) (by decide +kernel : routedCost .mother
    .bulkClassify (.ofNat 100) 10000 0 = .ok (.finite ⟨false, 1000, -6⟩))
  revert ordered
  decide

end ModelRouter
