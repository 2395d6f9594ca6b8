import AgentEcosystem.Cashflow.Ledger
import AgentEcosystem.Decimal.HasValue

/-!
What `balance` reports and what the debit guard decides. A reported balance is
a rational: the deltas of the pot added one by one, each sum rounded to the
default context. No ledger makes `balance` raise, because a reported balance
stays below a power of ten far from the context's limit.
-/
namespace CashflowLedger
open AgentSchemas DecimalArithmetic NearestRounding Raising Decimal

def reported (rows : Ledger) (p : Pot) : ℚ :=
  rows.foldl (fun acc r => if r.pot = p then defaultContext.round (acc + r.delta.toRat) else acc) 0

@[simp] theorem reported_nil (p : Pot) : reported [] p = 0 := rfl

theorem reported_append (rows : Ledger) (row : LedgerRow) (p : Pot) :
    reported (rows ++ [row]) p = if row.pot = p then
      defaultContext.round (reported rows p + row.delta.toRat) else reported rows p := by
  simp only [reported, List.foldl_append, List.foldl_cons, List.foldl_nil]

theorem reported_append_same {row : LedgerRow} {p : Pot} (rows : Ledger) (same : row.pot = p) :
    reported (rows ++ [row]) p = defaultContext.round (reported rows p + row.delta.toRat) := by
  rw [reported_append, if_pos same]

theorem reported_append_other {row : LedgerRow} {p : Pot} (rows : Ledger) (other : row.pot ≠ p) :
    reported (rows ++ [row]) p = reported rows p := by
  rw [reported_append, if_neg other]

theorem field_small {x : FiniteDecimal} (fits : FitsField deltaMaxDigits deltaDecimalPlaces x) :
    |x.toRat| < 10 ^ 8 := by
  have whole := fits.2
  norm_num [deltaMaxDigits, deltaDecimalPlaces] at whole
  linarith

theorem field_grid {x : FiniteDecimal} (fits : FitsField deltaMaxDigits deltaDecimalPlaces x) :
    x.toRat ∈ Grid ((10 : ℚ) ^ (-4 : ℤ)) := fits.1

theorem round_money {x : ℚ} (onGrid : x ∈ Grid ((10 : ℚ) ^ (-4 : ℤ))) (small : |x| < 10 ^ 24) :
    defaultContext.round x = x := by
  apply defaultContext.round_of_grid (by decide) onGrid
  norm_num [defaultContext]
  linarith

theorem reported_bound (rows : Ledger) (p : Pot) : |reported rows p| ≤ (10 : ℚ) ^ (36 : ℤ) := by
  induction rows using List.reverseRecOn with
  | nil =>
    rw [reported_nil, abs_zero]
    positivity
  | append_singleton rows row ih =>
    by_cases same : row.pot = p
    · rw [reported_append_same rows same]
      apply defaultContext.round_abs_absorbs (k := 8) (by decide)
      have size := field_small row.delta_fits
      have sum := abs_add_le (reported rows p) row.delta.toRat
      norm_num [defaultContext] at ih ⊢
      linarith
    · rw [reported_append_other rows same]
      exact ih

theorem zero_representable : (0 : ℚ) ∈ defaultContext.Representable :=
  ⟨0, 0, by decide, by decide, by simp⟩

theorem reported_representable (rows : Ledger) (p : Pot) :
    reported rows p ∈ defaultContext.Representable := by
  induction rows using List.reverseRecOn with
  | nil => exact zero_representable
  | append_singleton rows row ih =>
    by_cases same : row.pot = p
    · rw [reported_append_same rows same]
      exact defaultContext.round_mem _
    · rw [reported_append_other rows same]
      exact ih

theorem reported_grid (rows : Ledger) (p : Pot) :
    reported rows p ∈ Grid ((10 : ℚ) ^ (-4 : ℤ)) := by
  induction rows using List.reverseRecOn with
  | nil => exact grid_zero _
  | append_singleton rows row ih =>
    by_cases same : row.pot = p
    · rw [reported_append_same rows same]
      exact defaultContext.round_mem_grid (grid_add ih (field_grid row.delta_fits))
    · rw [reported_append_other rows same]
      exact ih

/-- Adding a ledger delta to a reported balance is always in range. -/
theorem reported_add_small (rows : Ledger) (p : Pot) {x : FiniteDecimal}
    (fits : FitsField deltaMaxDigits deltaDecimalPlaces x) :
    |reported rows p + x.toRat| < (10 : ℚ) ^ defaultContext.emax := by
  have far : (10 : ℚ) ^ (37 : ℤ) ≤ 10 ^ defaultContext.emax := ten_zpow_le (by decide)
  have bound := reported_bound rows p
  have size := field_small fits
  have triangle := abs_add_le (reported rows p) x.toRat
  norm_num at bound far
  linarith

def Reports (b : PotBalances) (rows : Ledger) : Prop :=
  ∀ p, (b.get p).HasValue (reported rows p)

theorem addRow_reports {sums : Pot → Decimal} {rows : Ledger}
    (report : ∀ p, (sums p).HasValue (reported rows p)) (row : LedgerRow) :
    ∃ sums', addRow sums row = .ok sums' ∧
      ∀ p, (sums' p).HasValue (reported (rows ++ [row]) p) := by
  obtain ⟨v, added, value⟩ := add_ok (report row.pot) (hasValue_finite row.delta)
    (reported_add_small rows row.pot row.delta_fits)
  refine ⟨Function.update sums row.pot v, ?_, ?_⟩
  · rw [addRow, added]
    rfl
  · intro p
    by_cases same : row.pot = p
    · subst same
      rw [Function.update_self, reported_append_same rows rfl]
      exact value
    · rw [Function.update_of_ne (Ne.symm same), reported_append_other rows same]
      exact report p

theorem sums_report (rows : Ledger) :
    ∃ sums, rows.foldlM addRow (fun _ => .ofNat 0) = .ok sums ∧
      ∀ p, (sums p).HasValue (reported rows p) := by
  induction rows using List.reverseRecOn with
  | nil => exact ⟨_, rfl, fun _ => hasValue_zero⟩
  | append_singleton rows row ih =>
    obtain ⟨sums, summed, report⟩ := ih
    obtain ⟨sums', added, report'⟩ := addRow_reports report row
    refine ⟨sums', ?_, report'⟩
    rw [List.foldlM_append, summed]
    change [row].foldlM addRow sums = _
    rw [List.foldlM_cons, added]
    rfl

theorem balance_reports (rows : Ledger) :
    ∃ b, outcome balance rows = (.ok b, rows) ∧ Reports b rows := by
  obtain ⟨sums, summed, report⟩ := sums_report rows
  refine ⟨⟨sums .operating, sums .reserve, sums .growth⟩, ?_, ?_⟩
  · rw [balance, outcome_bind, outcome_get]
    dsimp only
    rw [outcome_bind, summed]
    rfl
  · intro p
    cases p <;> exact report _

theorem ensures_snapshot {rows : Ledger} {returns : PotBalances → Ledger → Prop}
    {raises : LedgerError → Ledger → Prop} (h : ∀ b, Reports b rows → returns b rows) :
    Ensures snapshot rows returns raises := by
  obtain ⟨b, run, report⟩ := balance_reports rows
  unfold Ensures snapshot
  rw [run]
  exact h b report

def operatingFloor : ℚ := 50

theorem operatingFloor_value : operatingHardFloorUsd.HasValue operatingFloor := hasValue_ofNat 50

theorem floor_representable : operatingFloor ∈ defaultContext.Representable :=
  ⟨50, 0, by decide, by decide, by simp [operatingFloor]⟩

def DebitAllowed (rows : Ledger) (pot : Pot) (delta : ℚ) (source : CashflowSource) : Prop :=
  match pot with
  | .operating => operatingFloor ≤ defaultContext.round (reported rows .operating + delta)
  | .reserve => source = .emergencyTransferReserveToOperating
  | .growth => 0 ≤ defaultContext.round (reported rows .growth + delta)

theorem ensures_floor {rows : Ledger} {delta newBalance floor : Decimal} {low : ℚ}
    {err : LedgerError} {sum : ℚ → ℚ} (floored : floor.HasValue low)
    (value : ∀ q, delta.HasValue q → newBalance.HasValue (sum q)) :
    Ensures (do if ← attempt .decimalSignal (newBalance.lt floor) then throw err :
        Raising LedgerError Ledger Unit) rows
      (fun _ t => t = rows ∧ ∀ q, delta.HasValue q → low ≤ sum q)
      (fun _ t => t = rows ∧ ∀ q, delta.HasValue q → ¬ low ≤ sum q) := by
  refine ensures_bind (ensures_attempt ?_ ?_)
  · intro below less
    have decided : ∀ q, delta.HasValue q → below = decide (sum q < low) := by
      intro q has
      rw [lt_hasValue (value q has) floored] at less
      cases less
      rfl
    cases below with
    | true =>
      refine ensures_throw ⟨rfl, ?_⟩
      intro q has
      exact not_le.mpr (of_decide_eq_true (decided q has).symm)
    | false =>
      refine ensures_pure ⟨rfl, ?_⟩
      intro q has
      exact not_lt.mp (of_decide_eq_false (decided q has).symm)
  · intro signal raised
    refine ⟨rfl, ?_⟩
    intro q has
    rw [lt_hasValue (value q has) floored] at raised
    cases raised

theorem assertDebitAllowed_spec (rows : Ledger) (pot : Pot) (delta : Decimal)
    (source : CashflowSource) :
    Ensures (assertDebitAllowed pot delta source) rows
      (fun _ t => t = rows ∧ ∀ q, delta.HasValue q → DebitAllowed rows pot q source)
      (fun _ t => t = rows ∧ ∀ x, delta = .finite x →
        |reported rows pot + x.toRat| < (10 : ℚ) ^ defaultContext.emax →
        ¬ DebitAllowed rows pot x.toRat source) := by
  refine ensures_bind (ensures_snapshot fun snap report => ?_)
  refine ensures_bind (ensures_attempt ?_ ?_)
  · intro newBalance added
    have value : ∀ q, delta.HasValue q →
        newBalance.HasValue (defaultContext.round (reported rows pot + q)) :=
      fun q has => add_hasValue (report pot) has added
    have finite : ∀ (Q : ℚ → Prop), (∀ q, delta.HasValue q → ¬ Q q) → ∀ x, delta = .finite x →
        |reported rows pot + x.toRat| < (10 : ℚ) ^ defaultContext.emax → ¬ Q x.toRat := by
      rintro Q none x rfl _
      exact none _ (hasValue_finite x)
    cases pot with
    | operating =>
      refine ensures_mono (ensures_floor operatingFloor_value value) ?_ ?_
      · intro _ t kept
        exact kept
      · rintro _ t ⟨kept, low⟩
        exact ⟨kept, finite (fun q => DebitAllowed rows .operating q source) low⟩
    | reserve =>
      by_cases signed : source = .emergencyTransferReserveToOperating
      · simp only [signed, ne_eq, not_true_eq_false, if_false]
        exact ensures_pure ⟨rfl, fun _ _ => rfl⟩
      · simp only [ne_eq, signed, not_false_eq_true, if_true]
        exact ensures_throw ⟨rfl, fun _ _ _ allowed => signed allowed⟩
    | growth =>
      refine ensures_mono (ensures_floor hasValue_zero value) ?_ ?_
      · intro _ t kept
        exact kept
      · rintro _ t ⟨kept, low⟩
        exact ⟨kept, finite (fun q => DebitAllowed rows .growth q source) low⟩
  · intro signal raised
    refine ⟨rfl, ?_⟩
    rintro x rfl small
    obtain ⟨v, added, _⟩ := add_ok (report pot) (hasValue_finite x) small
    rw [added] at raised
    cases raised

end CashflowLedger
