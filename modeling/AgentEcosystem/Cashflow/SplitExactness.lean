import AgentEcosystem.Cashflow.InflowSplit

/-!
A split of amounts that fit the ledger's fields. None of its steps leaves the range
of the context, so it returns, and its parts are exact down to the smallest unit.
-/
namespace CashflowLedger
open AgentSchemas DecimalArithmetic NearestRounding Decimal

abbrev Money (x : FiniteDecimal) : Prop := FitsField deltaMaxDigits deltaDecimalPlaces x

theorem in_range {x : ℚ} (small : |x| < 10 ^ 24) : |x| < (10 : ℚ) ^ defaultContext.emax := by
  have far : (10 : ℚ) ^ (24 : ℤ) ≤ 10 ^ defaultContext.emax := ten_zpow_le (by decide)
  norm_num at far
  linarith

section Steps
variable {d e v : Decimal} {p q : ℚ}

theorem add_money (hp : d.HasValue p) (hq : e.HasValue q)
    (onGrid : p + q ∈ Grid ((10 : ℚ) ^ (-4 : ℤ))) (small : |p + q| < 10 ^ 24) :
    ∃ v, d.add defaultContext e = .ok v ∧ v.HasValue (p + q) := by
  obtain ⟨v, added, has⟩ := add_ok hp hq (in_range small)
  rw [round_money onGrid small] at has
  exact ⟨v, added, has⟩

theorem sub_money (hp : d.HasValue p) (hq : e.HasValue q)
    (onGrid : p - q ∈ Grid ((10 : ℚ) ^ (-4 : ℤ))) (small : |p - q| < 10 ^ 24) :
    ∃ v, d.sub defaultContext e = .ok v ∧ v.HasValue (p - q) := by
  obtain ⟨v, diff, has⟩ := sub_ok hp hq (in_range small)
  rw [round_money onGrid small] at has
  exact ⟨v, diff, has⟩

theorem quantize_money (hp : d.HasValue p) (small : |p| < 10 ^ 23) :
    ∃ v, d.quantize defaultContext fourPlaces = .ok v ∧ v.HasValue (toPlaces p) := by
  obtain ⟨v, quantized⟩ : ∃ v, d.quantize defaultContext fourPlaces = .ok v :=
    quantize_ok hp (by decide) (by decide) (by norm_num [defaultContext, fourPlaces]; linarith)
  exact ⟨v, quantized, (quantize_value hp quantized).1⟩

/- Money times a whole number of hundredths needs no rounding. -/
theorem shareValue_exact {a p : ℚ} (onGrid : a ∈ Grid ((10 : ℚ) ^ (-4 : ℤ)))
    (hundredths : ∃ n : ℤ, p = n / 100) (small : |a * p| < 10 ^ 22) :
    shareValue a p = toPlaces (a * p) := by
  obtain ⟨m, rfl⟩ := onGrid
  obtain ⟨n, rfl⟩ := hundredths
  have fine : (m : ℚ) * 10 ^ (-4 : ℤ) * (n / 100) ∈ Grid ((10 : ℚ) ^ (-6 : ℤ)) :=
    ⟨m * n, by push_cast; norm_num; ring⟩
  rw [shareValue, defaultContext.round_of_grid (by decide) fine]
  norm_num [defaultContext] at small ⊢
  linarith

theorem share_returns {amount split : Decimal} {a p : ℚ} (ha : amount.HasValue a)
    (onGrid : a ∈ Grid ((10 : ℚ) ^ (-4 : ℤ))) (hs : split.HasValue p)
    (hundredths : ∃ n : ℤ, p = n / 100) (small : |a * p| < 10 ^ 22) :
    ∃ v, share amount split = .ok v ∧ v.HasValue (toPlaces (a * p)) := by
  obtain ⟨product, multiplied, hproduct⟩ := mul_ok ha hs (in_range (by linarith))
  have near := abs_le.mp (round_near (x := a * p) (by linarith))
  obtain ⟨low, high⟩ := abs_lt.mp small
  obtain ⟨v, quantized, hv⟩ := quantize_money hproduct
    (by rw [abs_lt]; constructor <;> linarith)
  refine ⟨v, ?_, ?_⟩
  · rw [share, multiplied]
    exact quantized
  · rw [← shareValue_exact onGrid hundredths small]
    exact hv

theorem rollOverflow_returns {current opAmt part : Decimal} {cap : Option FiniteDecimal} {r o : ℚ}
    (hr : current.HasValue r) (rGrid : r ∈ Grid ((10 : ℚ) ^ (-4 : ℤ))) (rSmall : |r| < 10 ^ 8)
    (ho : opAmt.HasValue o) (oGrid : o ∈ Grid ((10 : ℚ) ^ (-4 : ℤ))) (oSmall : |o| < 10 ^ 10)
    (hq : part.HasValue q) (qGrid : q ∈ Grid ((10 : ℚ) ^ (-4 : ℤ))) (qSmall : |q| < 10 ^ 9)
    (money : ∀ c ∈ cap, Money c) :
    ∃ result, rollOverflow current (cap.map .finite) opAmt part = .ok result ∧
      result.1.HasValue (o + (q - cappedPart r (cap.map FiniteDecimal.toRat) q)) ∧
      result.2.HasValue (cappedPart r (cap.map FiniteDecimal.toRat) q) := by
  cases cap with
  | none => exact ⟨(opAmt, part), rfl, by simpa [cappedPart] using ho, hq⟩
  | some c =>
    obtain ⟨rLow, rHigh⟩ := abs_lt.mp rSmall
    obtain ⟨oLow, oHigh⟩ := abs_lt.mp oSmall
    obtain ⟨qLow, qHigh⟩ := abs_lt.mp qSmall
    obtain ⟨cLow, cHigh⟩ := abs_lt.mp (field_small (money c rfl))
    have cGrid := field_grid (money c rfl)
    have hc := hasValue_finite c
    obtain ⟨filled, added, hfilled⟩ := add_money hr hq (grid_add rGrid qGrid)
      (by rw [abs_lt]; constructor <;> linarith)
    simp only [Option.map_some, rollOverflow, added, bind, Except.bind, lt_hasValue hc hfilled,
      cappedPart]
    by_cases exceeds : c.toRat < r + q
    · have overGrid := grid_sub (grid_add rGrid qGrid) cGrid
      obtain ⟨overflow, diff, hover⟩ := sub_money hfilled hc overGrid
        (by rw [abs_lt]; constructor <;> linarith)
      obtain ⟨part', lowered, hpart⟩ := sub_money hq hover (grid_sub qGrid overGrid)
        (by rw [abs_lt]; constructor <;> linarith)
      obtain ⟨opAmt', raised, hop⟩ := add_money ho hover (grid_add oGrid overGrid)
        (by rw [abs_lt]; constructor <;> linarith)
      simp only [decide_eq_true exceeds, if_true, diff, lowered, raised]
      rw [min_eq_right (by linarith)]
      refine ⟨(opAmt', part'), rfl, ?_, ?_⟩
      · convert hop using 1
        ring
      · convert hpart using 1
        ring
    · simp only [decide_eq_false exceeds]
      rw [min_eq_left (by linarith), sub_self, add_zero]
      exact ⟨(opAmt, part), rfl, ho, hq⟩

end Steps

def LeavesRoom (current : FiniteDecimal) (cap : Option FiniteDecimal) (part : ℚ) : Prop :=
  ∀ c ∈ cap, current.toRat + part ≤ c.toRat

theorem cappedPart_room {current : FiniteDecimal} {cap : Option FiniteDecimal} {part : ℚ}
    (room : LeavesRoom current cap part) :
    cappedPart current.toRat (cap.map FiniteDecimal.toRat) part = part := by
  cases cap with
  | none => rfl
  | some c =>
    have fits := room c rfl
    exact min_eq_left (by linarith)

theorem cappedPart_money {current : FiniteDecimal} {cap : Option FiniteDecimal} {part : ℚ}
    (money : Money current) (caps : ∀ c ∈ cap, Money c)
    (onGrid : part ∈ Grid ((10 : ℚ) ^ (-4 : ℤ))) (nonneg : 0 ≤ part) :
    cappedPart current.toRat (cap.map FiniteDecimal.toRat) part ∈ Grid ((10 : ℚ) ^ (-4 : ℤ)) ∧
      -(2 * 10 ^ 8) ≤ cappedPart current.toRat (cap.map FiniteDecimal.toRat) part := by
  have whole : ∀ q ∈ cap.map FiniteDecimal.toRat, q ∈ Grid ((10 : ℚ) ^ (-4 : ℤ)) :=
    Option.forall_mem_map.mpr fun c inside => field_grid (caps c inside)
  refine ⟨cappedPart_grid (field_grid money) onGrid whole, ?_⟩
  cases cap with
  | none =>
    change -(2 * 10 ^ 8) ≤ part
    linarith
  | some c =>
    obtain ⟨cLow, _⟩ := abs_lt.mp (field_small (caps c rfl))
    obtain ⟨_, high⟩ := abs_lt.mp (field_small money)
    exact le_min (by linarith) (by linarith)

theorem rest_positive {a r g : ℚ} (ha : a ∈ Grid ((10 : ℚ) ^ (-4 : ℤ))) (positive : 0 < a)
    (hr : r ∈ Grid ((10 : ℚ) ^ (-4 : ℤ))) (hg : g ∈ Grid ((10 : ℚ) ^ (-4 : ℤ)))
    (rHigh : r ≤ a / 4 + 1 / 20000) (gHigh : g ≤ a * (3 / 20) + 1 / 20000) : 0 < a - r - g := by
  obtain ⟨m, rfl⟩ := ha
  obtain ⟨j, rfl⟩ := hr
  obtain ⟨k, rfl⟩ := hg
  norm_num at positive rHigh gHigh ⊢
  have units : 4 * (j : ℚ) ≤ m + 2 := by linarith
  have units' : 20 * (k : ℚ) ≤ 3 * m + 10 := by linarith
  have wholeJ : 4 * j ≤ m + 2 := by exact_mod_cast units
  have wholeK : 20 * k ≤ 3 * m + 10 := by exact_mod_cast units'
  have unit : 0 < m := by exact_mod_cast positive
  -- of a single unit both parts are rounded down
  have rest : 1 ≤ m - j - k := by
    rcases (show m = 1 ∨ 2 ≤ m by omega) with rfl | more
    · omega
    · omega
  have rest' : (1 : ℚ) ≤ m - j - k := by exact_mod_cast rest
  linarith

/-- The parts of a split of money. Reserve and Growth get their shares up to their
    caps, and Operating the rest. -/
theorem splitInflow_returns {amount currentReserve currentGrowth : FiniteDecimal}
    {reserveCap growthCap : Option FiniteDecimal} (positive : 0 < amount.toRat)
    (money : Money amount) (reserve : Money currentReserve) (growth : Money currentGrowth)
    (caps : ∀ c ∈ reserveCap, Money c) (caps' : ∀ c ∈ growthCap, Money c) :
    ∃ s, splitInflow (.finite amount) (.finite currentReserve) (reserveCap.map .finite)
        (.finite currentGrowth) (growthCap.map .finite) = .ok s ∧
      s.operating.HasValue (amount.toRat -
        cappedPart currentReserve.toRat (reserveCap.map FiniteDecimal.toRat)
          (toPlaces (amount.toRat * (1 / 4))) -
        cappedPart currentGrowth.toRat (growthCap.map FiniteDecimal.toRat)
          (toPlaces (amount.toRat * (3 / 20)))) ∧
      s.reserve.HasValue (cappedPart currentReserve.toRat (reserveCap.map FiniteDecimal.toRat)
        (toPlaces (amount.toRat * (1 / 4)))) ∧
      s.growth.HasValue (cappedPart currentGrowth.toRat (growthCap.map FiniteDecimal.toRat)
        (toPlaces (amount.toRat * (3 / 20)))) := by
  have ha := hasValue_finite amount
  have aGrid := field_grid money
  obtain ⟨_, aHigh⟩ := abs_lt.mp (field_small money)
  have opGrid := toPlaces_grid (amount.toRat * (3 / 5))
  have resGrid := toPlaces_grid (amount.toRat * (1 / 4))
  have grGrid := toPlaces_grid (amount.toRat * (3 / 20))
  have opNear := abs_le.mp (toPlaces_near (amount.toRat * (3 / 5)))
  have resNear := abs_le.mp (toPlaces_near (amount.toRat * (1 / 4)))
  have grNear := abs_le.mp (toPlaces_near (amount.toRat * (3 / 20)))
  have resNonneg : 0 ≤ toPlaces (amount.toRat * (1 / 4)) := toPlaces_nonneg (by positivity)
  have grNonneg : 0 ≤ toPlaces (amount.toRat * (3 / 20)) := toPlaces_nonneg (by positivity)
  obtain ⟨partGrid, partLow⟩ := cappedPart_money reserve caps resGrid resNonneg
  obtain ⟨partGrid', partLow'⟩ := cappedPart_money growth caps' grGrid grNonneg
  have partHigh := cappedPart_le currentReserve.toRat (toPlaces (amount.toRat * (1 / 4)))
    (reserveCap.map FiniteDecimal.toRat)
  have partHigh' := cappedPart_le currentGrowth.toRat (toPlaces (amount.toRat * (3 / 20)))
    (growthCap.map FiniteDecimal.toRat)
  obtain ⟨opAmt, shared, hop⟩ := share_returns ha aGrid split_values.1 ⟨60, by norm_num⟩
    (by rw [abs_of_pos (by positivity)]; linarith)
  obtain ⟨resAmt, shared', hres⟩ := share_returns ha aGrid split_values.2.1 ⟨25, by norm_num⟩
    (by rw [abs_of_pos (by positivity)]; linarith)
  obtain ⟨grAmt, shared'', hgr⟩ := share_returns ha aGrid split_values.2.2 ⟨15, by norm_num⟩
    (by rw [abs_of_pos (by positivity)]; linarith)
  obtain ⟨two, added, htwo⟩ := add_money hop hres (grid_add opGrid resGrid)
    (by rw [abs_lt]; constructor <;> linarith)
  obtain ⟨parts, added', hparts⟩ := add_money htwo hgr (grid_add (grid_add opGrid resGrid) grGrid)
    (by rw [abs_lt]; constructor <;> linarith)
  have residueGrid := grid_sub aGrid (grid_add (grid_add opGrid resGrid) grGrid)
  obtain ⟨residue, diff, hresidue⟩ := sub_money ha hparts residueGrid
    (by rw [abs_lt]; constructor <;> linarith)
  obtain ⟨opAmt', raised, hop'⟩ := add_money hop hresidue (grid_add opGrid residueGrid)
    (by rw [abs_lt]; constructor <;> linarith)
  obtain ⟨rolled, roll, hop₁, hres₁⟩ := rollOverflow_returns (hasValue_finite currentReserve)
    (field_grid reserve) (field_small reserve) hop' (grid_add opGrid residueGrid)
    (by rw [abs_lt]; constructor <;> linarith) hres resGrid
    (by rw [abs_lt]; constructor <;> linarith) caps
  have rolledGrid := grid_add (grid_add opGrid residueGrid) (grid_sub resGrid partGrid)
  obtain ⟨rolled', roll', hop₂, hgr₂⟩ := rollOverflow_returns (hasValue_finite currentGrowth)
    (field_grid growth) (field_small growth) hop₁ rolledGrid
    (by rw [abs_lt]; constructor <;> linarith) hgr grGrid
    (by rw [abs_lt]; constructor <;> linarith) caps'
  have endGrid := grid_add rolledGrid (grid_sub grGrid partGrid')
  obtain ⟨operating, quantized, hoperating⟩ := quantize_money hop₂
    (by rw [abs_lt]; constructor <;> linarith)
  obtain ⟨reservePart, quantized', hreserve⟩ := quantize_money hres₁
    (by rw [abs_lt]; constructor <;> linarith)
  obtain ⟨growthPart, quantized'', hgrowth⟩ := quantize_money hgr₂
    (by rw [abs_lt]; constructor <;> linarith)
  rw [toPlaces_money endGrid] at hoperating
  rw [toPlaces_money partGrid] at hreserve
  rw [toPlaces_money partGrid'] at hgrowth
  refine ⟨⟨operating, reservePart, growthPart⟩, ?_, ?_, hreserve, hgrowth⟩
  · simp only [splitInflow, shared, shared', shared'', added, added', diff, raised, roll, roll',
      quantized, quantized', quantized'', bind, Except.bind, pure, Except.pure]
  · convert hoperating using 1
    ring

/-- A split of money returns parts that add up to the amount. While no cap binds,
    Reserve and Growth are their shares rounded to the even neighbour, and Operating is
    within a unit of its share and never empty. -/
theorem splitInflow_exact {amount currentReserve currentGrowth : FiniteDecimal}
    {reserveCap growthCap : Option FiniteDecimal} (positive : 0 < amount.toRat)
    (money : Money amount) (reserve : Money currentReserve) (growth : Money currentGrowth)
    (caps : ∀ c ∈ reserveCap, Money c) (caps' : ∀ c ∈ growthCap, Money c) :
    ∃ s o r g, splitInflow (.finite amount) (.finite currentReserve) (reserveCap.map .finite)
        (.finite currentGrowth) (growthCap.map .finite) = .ok s ∧
      s.operating.HasValue o ∧ s.reserve.HasValue r ∧ s.growth.HasValue g ∧
      o + r + g = amount.toRat ∧
      (LeavesRoom currentReserve reserveCap (toPlaces (amount.toRat * (1 / 4))) →
        LeavesRoom currentGrowth growthCap (toPlaces (amount.toRat * (3 / 20))) →
        r = toPlaces (amount.toRat * (1 / 4)) ∧ g = toPlaces (amount.toRat * (3 / 20)) ∧
          |o - amount.toRat * (3 / 5)| ≤ 1 / 10000 ∧ 0 < o) := by
  obtain ⟨s, returned, hop, hres, hgr⟩ :=
    splitInflow_returns positive money reserve growth caps caps'
  refine ⟨s, _, _, _, returned, hop, hres, hgr, by ring, ?_⟩
  intro room room'
  have resNear := abs_le.mp (toPlaces_near (amount.toRat * (1 / 4)))
  have grNear := abs_le.mp (toPlaces_near (amount.toRat * (3 / 20)))
  rw [cappedPart_room room, cappedPart_room room']
  refine ⟨rfl, rfl, ?_, ?_⟩
  · rw [abs_le]
    constructor <;> linarith
  · exact rest_positive (field_grid money) positive (toPlaces_grid _) (toPlaces_grid _)
      (by linarith) (by linarith)

theorem splitInflow_unit : ∃ s o, splitInflow (.finite ⟨false, 1, -4⟩) (.finite (.ofNat 0))
    (some (.finite (.ofNat 1000))) (.finite (.ofNat 0)) none = .ok s ∧
    s.operating.HasValue o ∧ 0 < o := by
  have money : ∀ x, fieldCheck 12 4 (.finite x) = true → Money x := by
    intro x checked
    obtain ⟨y, same, fits⟩ := (fieldCheck_iff (.finite x)).mp checked
    cases same
    exact fits
  have unit : (FiniteDecimal.mk false 1 (-4)).toRat = 1 / 10000 := by
    norm_num [FiniteDecimal.toRat, FiniteDecimal.signed]
  have room : LeavesRoom (.ofNat 0) (some (.ofNat 1000))
      (toPlaces ((FiniteDecimal.mk false 1 (-4)).toRat * (1 / 4))) := by
    intro c mem
    cases mem
    have near := abs_le.mp (toPlaces_near ((FiniteDecimal.mk false 1 (-4)).toRat * (1 / 4)))
    rw [unit] at near ⊢
    norm_num [FiniteDecimal.toRat, FiniteDecimal.ofNat, FiniteDecimal.signed] at near ⊢
    linarith
  have capped : ∀ c ∈ some (FiniteDecimal.ofNat 1000), Money c := by
    intro c mem
    cases mem
    exact money _ (by decide)
  have uncapped : ∀ c ∈ (none : Option FiniteDecimal), Money c := fun c mem =>
    absurd mem (Option.not_mem_none c)
  have room' : LeavesRoom (.ofNat 0) none
      (toPlaces ((FiniteDecimal.mk false 1 (-4)).toRat * (3 / 20))) := fun c mem =>
    absurd mem (Option.not_mem_none c)
  have zero := money (.ofNat 0) (by decide)
  obtain ⟨s, o, r, g, returned, hop, _, _, _, free⟩ := splitInflow_exact
    (by rw [unit]; norm_num) (money ⟨false, 1, -4⟩ (by decide)) zero zero capped uncapped
  exact ⟨s, o, returned, hop, (free room room').2.2.2⟩

end CashflowLedger
