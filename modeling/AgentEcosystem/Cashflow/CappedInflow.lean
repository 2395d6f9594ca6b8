import AgentEcosystem.Cashflow.ErrorAtomicity
import AgentEcosystem.Cashflow.SplitExactness

/-!
An inflow against the caps of Reserve and Growth. A pot that the context holds to
four decimals never loses by an inflow and never passes its cap. Near the last
digit of the precision a sum is rounded, and an entry can leave no trace in it.
-/
namespace CashflowLedger
open AgentSchemas DecimalArithmetic NearestRounding Raising Decimal

def Holds (rows : Ledger) (p : Pot) : Prop := |reported rows p| + 10 ^ 8 ≤ 10 ^ 24

section Special
variable {amount split v : Decimal}

theorem share_special (hs : ∃ x, split = .finite x) (h : share amount split = .ok v) :
    v.isNaN = true ∨ ∃ x, amount = .finite x := by
  obtain ⟨y, rfl⟩ := hs
  rcases amount with x | sign | ⟨signaling, sign, payload⟩
  · exact .inr ⟨x, rfl⟩
  · obtain ⟨product, multiplied, quantized⟩ := ok_of_bind h
    simp only [Decimal.mul] at multiplied
    split at multiplied
    · cases multiplied
    · cases multiplied
      cases quantized
  · cases signaling
    · cases h
      exact .inl rfl
    · cases h

/- A cap is compared with the pot, so neither it nor the part is a NaN. -/
theorem rollOverflow_numbers {current cap opAmt part : Decimal} {result : Decimal × Decimal}
    (h : rollOverflow current (some cap) opAmt part = .ok result) :
    cap.isNaN = false ∧ part.isNaN = false := by
  obtain ⟨filled, added, h⟩ := ok_of_bind h
  obtain ⟨isOver, decided, h⟩ := ok_of_bind h
  have numbers := lt_ok_iff.mp ⟨isOver, decided⟩
  rw [(add_isNaN added).1] at numbers
  simp only [Bool.or_eq_false_iff] at numbers
  exact ⟨numbers.1, numbers.2.2⟩

theorem splitInflow_numbers {currentReserve currentGrowth trailing growthCap : Decimal}
    {reserveCap : Option Decimal} {s : InflowSplit}
    (capped : growthCapFromTrailingRevenue trailing = .ok growthCap)
    (h : splitInflow amount currentReserve reserveCap currentGrowth (some growthCap) = .ok s) :
    (∃ x, amount = .finite x) ∧ ∃ x, trailing = .finite x := by
  obtain ⟨opAmt, _, h⟩ := ok_of_bind h
  obtain ⟨resAmt, _, h⟩ := ok_of_bind h
  obtain ⟨grAmt, shared, h⟩ := ok_of_bind h
  obtain ⟨two, _, h⟩ := ok_of_bind h
  obtain ⟨parts, _, h⟩ := ok_of_bind h
  obtain ⟨residue, _, h⟩ := ok_of_bind h
  obtain ⟨opAmt', _, h⟩ := ok_of_bind h
  obtain ⟨rolled, _, h⟩ := ok_of_bind h
  obtain ⟨rolled', roll, _⟩ := ok_of_bind h
  obtain ⟨capNumber, partNumber⟩ := rollOverflow_numbers roll
  constructor
  · rcases share_special ⟨_, rfl⟩ shared with nan | number
    · rw [partNumber] at nan
      cases nan
    · exact number
  · -- Growth's cap is the share of the revenue that the pot may hold
    have pct : ∃ x, growthCapPctOf90dRevenue = .finite x := ⟨_, rfl⟩
    rcases share_special pct capped with nan | number
    · rw [capNumber] at nan
      cases nan
    · exact number

end Special

theorem rolled_within {r o p : ℚ} {cap : Option ℚ} (hr : r ∈ Grid ((10 : ℚ) ^ (-4 : ℤ)))
    (hp : p ∈ Grid ((10 : ℚ) ^ (-4 : ℤ))) (hc : ∀ c ∈ cap, c ∈ Grid ((10 : ℚ) ^ (-4 : ℤ)))
    (held : |r| + 10 ^ 8 ≤ 10 ^ 24) (small : p ≤ 99999999)
    (recorded : 0 < toPlaces (rollValue r cap o p).2) :
    ∀ c ∈ cap, r + toPlaces (rollValue r cap o p).2 ≤ c := by
  intro c mem
  cases mem
  have cGrid := hc c rfl
  obtain ⟨rLow, rHigh⟩ := abs_le.mp (show |r| ≤ 10 ^ 24 - 10 ^ 8 by linarith)
  -- overflow only lowers the part, so the part was positive
  have positive : 0 < p := by
    by_contra none
    have := part_le r o (some c) zero_representable (grid_zero _) (not_lt.mp none)
    linarith
  have filled : defaultContext.round (r + p) = r + p :=
    round_money (grid_add hr hp) (by rw [abs_lt]; constructor <;> linarith)
  simp only [rollValue, filled] at recorded ⊢
  by_cases exceeds : c < r + p
  · rw [if_pos exceeds] at recorded ⊢
    have overGrid := grid_sub (grid_add hr hp) cGrid
    rcases lt_or_ge (r + p - c) (10 ^ 24) with near | far
    · have overflow : defaultContext.round (r + p - c) = r + p - c :=
        round_money overGrid (by rw [abs_lt]; constructor <;> linarith)
      have lowered : defaultContext.round (p - (r + p - c)) = p - (r + p - c) :=
        round_money (grid_sub hp overGrid) (by rw [abs_lt]; constructor <;> linarith)
      rw [overflow, lowered, toPlaces_money (grid_sub hp overGrid)]
      linarith
    · have rep : (10 ^ 24 : ℚ) ∈ defaultContext.Representable :=
        ⟨1, 24, by decide, by decide, by norm_num⟩
      have overflow := defaultContext.rounding.le_round rep far
      change 10 ^ 24 ≤ defaultContext.round (r + p - c) at overflow
      have lowered := defaultContext.rounding.round_le zero_representable
        (show p - defaultContext.round (r + p - c) ≤ 0 by linarith)
      have part := nearest_le (roundGrid_nearest (ten_zpow_pos fourPlaces) _) (grid_zero _) lowered
      exact absurd recorded (not_lt.mpr part)
  · rw [if_neg exceeds, toPlaces_money hp]
    linarith

section Pots
variable {rows t : Ledger} {pot : Pot} {q : ℚ}

theorem gained_ge (gained : Gained rows t pot q) : reported rows pot ≤ reported t pot := by
  rw [gained pot]
  by_cases pos : 0 < q
  · rw [if_pos ⟨rfl, pos⟩]
    exact defaultContext.rounding.le_round (reported_representable rows pot) (by linarith)
  · rw [if_neg fun both => pos both.2]

theorem gained_held (gained : Gained rows t pot q) (onGrid : q ∈ Grid ((10 : ℚ) ^ (-4 : ℤ)))
    (held : Holds rows pot) (small : q < 10 ^ 8) :
    reported t pot = reported rows pot + max q 0 := by
  apply gained_exact gained onGrid
  intro pos
  obtain ⟨low, high⟩ := abs_le.mp (show |reported rows pot| ≤ 10 ^ 24 - 10 ^ 8 by
    unfold Holds at held
    linarith)
  rw [abs_lt]
  constructor <;> linarith

theorem gained_within {o p : ℚ} {cap : Option ℚ}
    (gained : Gained rows t pot (toPlaces (rollValue (reported rows pot) cap o p).2))
    (hp : p ∈ Grid ((10 : ℚ) ^ (-4 : ℤ))) (hc : ∀ c ∈ cap, c ∈ Grid ((10 : ℚ) ^ (-4 : ℤ)))
    (held : Holds rows pot) (small : p ≤ 99999999)
    (part : toPlaces (rollValue (reported rows pot) cap o p).2 < 10 ^ 8) :
    ∀ c ∈ cap, reported t pot ≤ max (reported rows pot) c := by
  intro c mem
  rw [gained_held gained (toPlaces_grid _) held part]
  rcases le_or_gt (toPlaces (rollValue (reported rows pot) cap o p).2) 0 with none | recorded
  · rw [max_eq_right none, add_zero]
    exact le_max_left _ _
  · rw [max_eq_left recorded.le]
    exact le_max_of_le_right (rolled_within (reported_grid rows pot) hp hc held small recorded c mem)

end Pots

section Inflow
variable (P : Platform) (svc : CashflowService) {rows : Ledger}

theorem splitAndRecordInflow_numbers (amountUsd trailing : Decimal) (source : CashflowSource)
    (refId : Option String) (reserveCap : Option Decimal) :
    Ensures (splitAndRecordInflow P svc amountUsd source refId reserveCap trailing) rows
      (fun _ _ => (∃ x, amountUsd = .finite x) ∧ (∃ x, trailing = .finite x) ∧
        ∃ growthCap, growthCapFromTrailingRevenue trailing = .ok growthCap)
      (fun _ _ => True) := by
  apply ensures_bind
  apply ensures_snapshot
  intro snap _
  apply ensures_bind
  apply ensures_attempt _ fun _ _ => trivial
  intro growthCap capped
  apply ensures_bind
  apply ensures_attempt _ fun _ _ => trivial
  intro s split
  obtain ⟨amount, revenue⟩ := splitInflow_numbers capped split
  exact ensures_mono ensures_outcome (fun _ _ _ => ⟨amount, revenue, growthCap, capped⟩)
    fun _ _ _ => trivial

/-- An inflow that returns takes nothing from Growth and Reserve. It leaves each of
    them at its cap at most, and Operating higher, if the pot is held to four decimals. -/
theorem inflow_capped (amountUsd : Decimal) (reserveCap : Option FiniteDecimal)
    (caps : ∀ cap ∈ reserveCap, cap.toRat ∈ Grid ((10 : ℚ) ^ (-4 : ℤ))) (trailing : Decimal)
    (source : CashflowSource) (refId : Option String)
    (returns : (outcome (splitAndRecordInflow P svc amountUsd source refId
      (reserveCap.map .finite) trailing) rows).1.isOk = true) :
    let t := after (splitAndRecordInflow P svc amountUsd source refId
      (reserveCap.map .finite) trailing) rows
    ∃ growthCap k, growthCapFromTrailingRevenue trailing = .ok growthCap ∧ growthCap.HasValue k ∧
      reported rows .growth ≤ reported t .growth ∧
      (Holds rows .growth → reported t .growth ≤ max (reported rows .growth) k) ∧
      reported rows .reserve ≤ reported t .reserve ∧
      (Holds rows .reserve → ∀ cap ∈ reserveCap,
        reported t .reserve ≤ max (reported rows .reserve) cap.toRat) ∧
      (Holds rows .operating → reported rows .operating < reported t .operating) := by
  intro t
  rcases run : outcome (splitAndRecordInflow P svc amountUsd source refId
    (reserveCap.map .finite) trailing) rows with ⟨err | entries, t'⟩
  · rw [run] at returns
    cases returns
  have same : t = t' := congrArg Prod.snd run
  rw [same]
  obtain ⟨⟨a, rfl⟩, ⟨revenue, rfl⟩, growthCap, capped⟩ := ensures_of_returns
    (splitAndRecordInflow_numbers P svc amountUsd trailing source refId _) run
  have hk := growthCap_finite capped
  have hc := capValue_finite reserveCap
  have capGrid : ∀ c ∈ reserveCap.map FiniteDecimal.toRat, c ∈ Grid ((10 : ℚ) ^ (-4 : ℤ)) :=
    Option.forall_mem_map.mpr caps
  obtain ⟨shared, small, positive, t₁, t₂, op, res, gr⟩ := ensures_of_returns
    (splitAndRecordInflow_gains P svc source refId (hasValue_finite a) hc capped hk) run
  have growthGrid : ∀ c ∈ some (toPlaces (defaultContext.round (revenue.toRat * (3 / 10)))),
      c ∈ Grid ((10 : ℚ) ^ (-4 : ℤ)) := by
    intro c mem
    cases mem
    exact toPlaces_grid _
  obtain ⟨resShare, grShare⟩ := shares_small shared small
  obtain ⟨resSmall, grSmall⟩ := parts_small shared small
  have operating : reported t' .operating = reported t₁ .operating := by
    rw [gained_other gr (by decide), gained_other res (by decide)]
  have reserveBefore := gained_other op (p := .reserve) (by decide)
  have reserve : reported t' .reserve = reported t₂ .reserve := gained_other gr (by decide)
  have growth : reported t₂ .growth = reported rows .growth := by
    rw [gained_other res (by decide), gained_other op (by decide)]
  refine ⟨growthCap, _, capped, hk, ?_, ?_, ?_, ?_, ?_⟩
  · rw [← growth]
    exact gained_ge gr
  · intro held
    unfold Holds at held
    simp only [splitValue] at gr grSmall
    rw [← growth] at held gr grSmall ⊢
    exact gained_within gr (shareValue_grid _ _) growthGrid held grShare grSmall _ rfl
  · rw [reserve, ← reserveBefore]
    exact gained_ge res
  · intro held cap member
    unfold Holds at held
    simp only [splitValue] at res resSmall
    rw [reserve]
    rw [← reserveBefore] at held res resSmall ⊢
    exact gained_within res (shareValue_grid _ _) capGrid held resShare resSmall _
      (Option.mem_map_of_mem _ member)
  · intro held
    rw [operating, gained_held op (toPlaces_grid _) held small, max_eq_left positive.le]
    linarith

theorem splitAndRecordInflow_returns {amountUsd trailing growthCap : Decimal}
    {reserveCap : Option Decimal} {o r g : ℚ} (source : CashflowSource) (refId : Option String)
    (capped : growthCapFromTrailingRevenue trailing = .ok growthCap)
    (split : ∀ snap, Reports snap rows → ∃ s, splitInflow amountUsd snap.reserve reserveCap
      snap.growth (some growthCap) = .ok s ∧
        s.operating.HasValue o ∧ s.reserve.HasValue r ∧ s.growth.HasValue g)
    (positive : 0 < o) (small : o < 10 ^ 8 ∧ r < 10 ^ 8 ∧ g < 10 ^ 8)
    (onGrid : o ∈ Grid ((10 : ℚ) ^ (-4 : ℤ)) ∧ r ∈ Grid ((10 : ℚ) ^ (-4 : ℤ)) ∧
      g ∈ Grid ((10 : ℚ) ^ (-4 : ℤ))) :
    (outcome (splitAndRecordInflow P svc amountUsd source refId reserveCap trailing) rows).1.isOk =
      true := by
  have returned : Ensures (splitAndRecordInflow P svc amountUsd source refId reserveCap trailing)
      rows (fun _ _ => True) (fun _ _ => False) := by
    apply ensures_bind
    apply ensures_snapshot
    intro snap report
    obtain ⟨s, parts, hop, hres, hgr⟩ := split snap report
    apply ensures_bind
    rw [capped]
    apply ensures_attempt_ok
    apply ensures_bind
    rw [parts]
    apply ensures_attempt_ok
    apply ensures_bind
    apply ensures_mono (credit_spec P svc rows .operating source refId "" s.operating)
    · intro opEntry t _
      apply ensures_bind
      apply ensures_mono (creditPositive_returns P svc t source refId opEntry hres onGrid.2.1
        small.2.1) _ fun _ _ impossible => impossible
      intro resEntry t' _
      apply ensures_bind
      exact ensures_mono (creditPositive_returns P svc t' source refId opEntry hgr onGrid.2.2
        small.2.2) (fun _ _ _ => ensures_pure trivial) fun _ _ impossible => impossible
    · rintro err t ⟨_, refused⟩
      obtain ⟨x, same, rfl⟩ := hop
      apply refused x same positive
      refine ⟨positive.ne', fun negative => absurd negative (not_lt.mpr positive.le),
        ⟨onGrid.1, ?_⟩, by decide⟩
      rw [abs_of_pos positive]
      norm_num [deltaMaxDigits, deltaDecimalPlaces]
      linarith
  obtain ⟨entries, run, _⟩ := returns_of_ensures returned
  rw [run]
  rfl

end Inflow

theorem inflow_capped_growth :
    reported (after (splitAndRecordInflow runnablePlatform motherService (.finite (.ofNat 100))
      .revenuePolar none (Option.map .finite none) (.ofNat 1000)) growthSeed) .growth ≤ 300 := by
  have returns : (outcome (splitAndRecordInflow runnablePlatform motherService
      (.finite (.ofNat 100)) .revenuePolar none (Option.map .finite none) (.ofNat 1000))
      growthSeed).1.isOk = true := by decide +kernel
  obtain ⟨growthCap, k, capped, hk, _, within, _⟩ :=
    inflow_capped runnablePlatform motherService _ none (by simp) _ _ _ returns
  have atThirty : growthCapFromTrailingRevenue (.ofNat 1000) =
      .ok (.finite ⟨false, 3000000, -4⟩) := by decide +kernel
  rw [atThirty] at capped
  cases capped
  have cap : k = 300 := by
    rw [hk.unique (hasValue_finite _)]
    decide +kernel
  have balance : reported growthSeed .growth = 290 := by decide +kernel
  have held : Holds growthSeed .growth := by
    rw [Holds, balance]
    norm_num
  have bound := within held
  rw [cap, balance] at bound
  exact bound.trans (by norm_num)

theorem tenMillion_fits : FitsField deltaMaxDigits deltaDecimalPlaces (.ofNat (10 ^ 7)) := by
  have checked : fieldCheck 12 4 (.finite (.ofNat (10 ^ 7))) = true := by decide
  obtain ⟨x, same, fits⟩ := (fieldCheck_iff _).mp checked
  cases same
  exact fits

def topUp : LedgerRow where
  pot := .operating
  delta := .ofNat (10 ^ 7)
  source := .manualTopup
  refId := none
  note := ""
  delta_fits := tenMillion_fits
  note_fits := by decide
  writtenBy := .mother

def topUps (n : ℕ) : Ledger := List.replicate n topUp

theorem topUps_operating {n : ℕ} (short : n < 10 ^ 28) :
    reported (topUps n) .operating = n * 10 ^ 7 := by
  induction n with
  | zero => simp [topUps, reported]
  | succ n ih =>
    have delta : topUp.delta.toRat = 10 ^ 7 := by
      norm_num [topUp, FiniteDecimal.toRat, FiniteDecimal.ofNat, FiniteDecimal.signed]
    have rep : ((n + 1 : ℕ) * 10 ^ 7 : ℚ) ∈ defaultContext.Representable :=
      ⟨(n + 1 : ℕ), 7, by decide, by rw [Nat.abs_cast]; exact_mod_cast short, by norm_num⟩
    have sum : (n * 10 ^ 7 + 10 ^ 7 : ℚ) = (n + 1 : ℕ) * 10 ^ 7 := by
      push_cast
      ring
    have append : topUps (n + 1) = topUps n ++ [topUp] := List.replicate_succ'
    have ofOperating : topUp.pot = .operating := rfl
    rw [append, reported_append_same (topUps n) ofOperating, ih (by omega), delta, sum]
    exact defaultContext.round_of_representable rep

theorem topUps_other {p : Pot} (n : ℕ) (other : .operating ≠ p) : reported (topUps n) p = 0 := by
  induction n with
  | zero => simp [topUps, reported]
  | succ n ih =>
    have append : topUps (n + 1) = topUps n ++ [topUp] := List.replicate_succ'
    rw [append, reported_append_other (topUps n) other]
    exact ih

def smallest : FiniteDecimal := ⟨false, 1, -4⟩

theorem smallest_value : smallest.toRat = 1 / 10000 := by
  norm_num [smallest, FiniteDecimal.toRat, FiniteDecimal.signed]

theorem money_zero {x : FiniteDecimal} (zero : x.toRat = 0) : Money x := by
  rw [Money, FitsField, zero]
  exact ⟨grid_zero _, by norm_num [deltaMaxDigits, deltaDecimalPlaces]⟩

theorem smallest_split {rows : Ledger} (reserve : reported rows .reserve = 0)
    (growth : reported rows .growth = 0) (snap : PotBalances) (report : Reports snap rows) :
    ∃ s, splitInflow (.finite smallest) snap.reserve none snap.growth
        (some (.finite ⟨false, 0, -4⟩)) = .ok s ∧
      s.operating.HasValue (1 / 10000) ∧ s.reserve.HasValue 0 ∧ s.growth.HasValue 0 := by
  obtain ⟨res, hres, resZero⟩ := report .reserve
  obtain ⟨gr, hgr, grZero⟩ := report .growth
  rw [reserve] at resZero
  rw [growth] at grZero
  have zero : (FiniteDecimal.mk false 0 (-4)).toRat = 0 := by decide +kernel
  have parts : toPlaces (1 / 10000 * (1 / 4)) = 0 ∧ toPlaces (1 / 10000 * (3 / 20)) = 0 := by
    decide +kernel
  have unit : Money smallest := by
    rw [Money, FitsField, smallest_value]
    exact ⟨⟨1, by norm_num [deltaDecimalPlaces]⟩, by norm_num [deltaMaxDigits, deltaDecimalPlaces]⟩
  have uncapped : ∀ c ∈ (none : Option FiniteDecimal), Money c := fun c mem =>
    absurd mem (Option.not_mem_none c)
  have capped : ∀ c ∈ some (FiniteDecimal.mk false 0 (-4)), Money c := by
    intro c mem
    cases mem
    exact money_zero zero
  obtain ⟨s, split, hop, hres', hgr'⟩ := splitInflow_returns (by rw [smallest_value]; norm_num)
    unit (money_zero resZero) (money_zero grZero) uncapped capped
  change snap.reserve = _ at hres
  change snap.growth = _ at hgr
  rw [hres, hgr]
  simp only [cappedPart, smallest_value, Option.map_none, Option.map_some, parts, zero, grZero,
    sub_self, min_self, sub_zero] at hop hres' hgr'
  exact ⟨s, split, hop, hres', hgr'⟩

/-- An inflow of the smallest amount into an Operating pot of 10²⁵, whose last digit
    is a hundredth, returns and leaves no trace there. -/
theorem inflow_without_trace :
    (outcome (splitAndRecordInflow runnablePlatform motherService (.finite smallest)
      .revenuePolar none none (.ofNat 0)) (topUps (10 ^ 18))).1.isOk = true ∧
    ¬ reported (topUps (10 ^ 18)) .operating < reported (after (splitAndRecordInflow
      runnablePlatform motherService (.finite smallest) .revenuePolar none none (.ofNat 0))
      (topUps (10 ^ 18))) .operating := by
  have capped : growthCapFromTrailingRevenue (.ofNat 0) = .ok (.finite ⟨false, 0, -4⟩) := by
    decide +kernel
  have full : reported (topUps (10 ^ 18)) .operating = 10 ^ 25 := by
    rw [topUps_operating (by norm_num)]
    norm_num
  have reserve : reported (topUps (10 ^ 18)) .reserve = 0 := topUps_other _ (by decide)
  have growth : reported (topUps (10 ^ 18)) .growth = 0 := topUps_other _ (by decide)
  have returned := splitAndRecordInflow_returns runnablePlatform motherService .revenuePolar none
    capped (smallest_split reserve growth) (by norm_num) (by norm_num)
    ⟨⟨1, by norm_num⟩, grid_zero _, grid_zero _⟩
  refine ⟨returned, ?_⟩
  rcases run : outcome (splitAndRecordInflow runnablePlatform motherService (.finite smallest)
    .revenuePolar none none (.ofNat 0)) (topUps (10 ^ 18)) with ⟨err | entries, t⟩
  · rw [run] at returned
    cases returned
  have uncapped : CapValue none none := trivial
  obtain ⟨_, _, _, t₁, t₂, op, res, gr⟩ := ensures_of_returns
    (splitAndRecordInflow_gains runnablePlatform motherService .revenuePolar none
      (hasValue_finite smallest) uncapped capped (hasValue_finite _)) run
  have part : (splitValue smallest.toRat 0 none 0 (some (FiniteDecimal.mk false 0 (-4)).toRat)).1 =
      1 / 10000 := by decide +kernel
  have absorbed : defaultContext.round (10 ^ 25 + 1 / 10000) = 10 ^ 25 := by decide +kernel
  have operating : reported t .operating = 10 ^ 25 := by
    rw [gained_other gr (by decide), gained_other res (by decide), op .operating, reserve, growth,
      part, full, if_pos ⟨rfl, by norm_num⟩, absorbed]
  rw [after, run, full, operating]
  exact lt_irrefl _

end CashflowLedger
