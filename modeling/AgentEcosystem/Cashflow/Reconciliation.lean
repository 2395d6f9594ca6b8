import AgentEcosystem.Cashflow.Balances
import AgentEcosystem.Cashflow.FieldCheck

/-!
Hourly reconciliation. On a ledger of up to 10¹⁵ rows no sum of deltas is ever
rounded, so a pot reports exactly what was entered into it, and the drift that
`check_drift` finds is the money by which its two readings of the table differ.
-/
namespace CashflowLedger
open AgentSchemas DecimalArithmetic NearestRounding Raising Decimal

def deltaSum (rows : List LedgerRow) : ℚ := (rows.map fun r => r.delta.toRat).sum

def entered (rows : Ledger) (p : Pot) : ℚ := deltaSum (rows.filter fun r => r.pot = p)

theorem deltaSum_append (rows new : List LedgerRow) :
    deltaSum (rows ++ new) = deltaSum rows + deltaSum new := by
  rw [deltaSum, List.map_append, List.sum_append]
  rfl

theorem deltaSum_singleton (row : LedgerRow) : deltaSum [row] = row.delta.toRat := by
  simp [deltaSum]

theorem entered_append (rows : Ledger) (row : LedgerRow) (p : Pot) :
    entered (rows ++ [row]) p = if row.pot = p then entered rows p + row.delta.toRat
      else entered rows p := by
  unfold entered
  rw [List.filter_append, deltaSum_append]
  split
  · next same => rw [List.filter_singleton, decide_eq_true same, cond_true, deltaSum_singleton]
  · next other =>
    rw [List.filter_singleton, decide_eq_false other, cond_false]
    exact add_zero _

theorem deltaSum_pots (rows : Ledger) :
    deltaSum rows = entered rows .operating + entered rows .reserve + entered rows .growth := by
  induction rows using List.reverseRecOn with
  | nil => simp [entered, deltaSum]
  | append_singleton rows row ih =>
    rw [deltaSum_append, deltaSum_singleton, ih]
    simp only [entered_append]
    cases row.pot <;> simp <;> ring

theorem deltaSum_grid (rows : List LedgerRow) : deltaSum rows ∈ Grid ((10 : ℚ) ^ (-4 : ℤ)) := by
  induction rows using List.reverseRecOn with
  | nil => exact grid_zero _
  | append_singleton rows row ih =>
    rw [deltaSum_append, deltaSum_singleton]
    exact grid_add ih (field_grid row.delta_fits)

theorem deltaSum_abs_le (rows : List LedgerRow) : |deltaSum rows| ≤ rows.length * 10 ^ 8 := by
  induction rows using List.reverseRecOn with
  | nil => simp [deltaSum]
  | append_singleton rows row ih =>
    rw [deltaSum_append, deltaSum_singleton, List.length_append, List.length_singleton]
    have size := field_small row.delta_fits
    have triangle := abs_add_le (deltaSum rows) row.delta.toRat
    push_cast
    linarith

/-- Few enough rows that no sum of their deltas needs more than 28 digits. -/
def Short (rows : Ledger) : Prop := rows.length ≤ 10 ^ 15

theorem Short.deltaSum_le {rows : Ledger} (short : Short rows) : |deltaSum rows| ≤ 10 ^ 23 := by
  have count : (rows.length : ℚ) ≤ 10 ^ 15 := by exact_mod_cast short
  have bound := deltaSum_abs_le rows
  linarith

theorem Short.filter {rows : Ledger} (short : Short rows) (q : LedgerRow → Bool) :
    Short (rows.filter q) := le_trans (List.length_filter_le q rows) short

theorem Short.entered_le {rows : Ledger} (short : Short rows) (p : Pot) :
    |entered rows p| ≤ 10 ^ 23 := (short.filter _).deltaSum_le

theorem Short.prefix {rows new : Ledger} (short : Short (rows ++ new)) : Short rows := by
  unfold Short at short ⊢
  rw [List.length_append] at short
  omega

theorem reported_exact {rows : Ledger} (short : Short rows) (p : Pot) :
    reported rows p = entered rows p := by
  induction rows using List.reverseRecOn with
  | nil => rfl
  | append_singleton rows row ih =>
    have sofar := ih short.prefix
    by_cases same : row.pot = p
    · have sum : entered (rows ++ [row]) p = entered rows p + row.delta.toRat := by
        rw [entered_append, if_pos same]
      have bound := short.entered_le p
      rw [reported_append_same rows same, sofar, ← sum]
      exact round_money (deltaSum_grid _) (by linarith)
    · rw [reported_append_other rows same, entered_append, if_neg same]
      exact sofar

/-- What reconciliation uses of the database: `coalesce(sum(delta), 0)` over the
    table adds the deltas exactly. -/
structure Database where
  sumDelta : Ledger → FiniteDecimal
  sumDelta_exact : ∀ rows, (sumDelta rows).toRat = deltaSum rows

def totalBalances (b : PotBalances) : Except Signal Decimal := do
  (← b.operating.add defaultContext b.reserve).add defaultContext b.growth

def ledgerDrift (balances : PotBalances) (sumOfEntries : Decimal) : Except Signal Decimal := do
  let total ← totalBalances balances
  (← total.sub defaultContext sumOfEntries).abs defaultContext

/-- `meanwhile` is what other sessions do to the table between the two readings. -/
def checkDrift (D : Database) (meanwhile : Ledger → Ledger) :
    Raising LedgerError Ledger Decimal := do
  let balances ← balance
  modify meanwhile
  let totalEntries := Decimal.finite (D.sumDelta (← get))
  let total ← attempt .decimalSignal (totalBalances balances)
  attempt .decimalSignal do
    (← totalEntries.sub defaultContext total).abs defaultContext

theorem round_total {x : ℚ} (onGrid : x ∈ Grid ((10 : ℚ) ^ (-4 : ℤ))) (bound : |x| ≤ 3 * 10 ^ 23) :
    defaultContext.round x = x ∧ |x| < (10 : ℚ) ^ defaultContext.emax := by
  have far : (10 : ℚ) ^ (24 : ℤ) ≤ 10 ^ defaultContext.emax := ten_zpow_le (by decide)
  norm_num at far
  exact ⟨round_money onGrid (by linarith), by linarith⟩

theorem totalBalances_exact {b : PotBalances} {rows : Ledger} (short : Short rows)
    (report : Reports b rows) :
    ∃ total, totalBalances b = .ok total ∧ total.HasValue (deltaSum rows) := by
  have hop := short.entered_le .operating
  have hres := short.entered_le .reserve
  have value : ∀ p, (b.get p).HasValue (entered rows p) := by
    intro p
    rw [← reported_exact short p]
    exact report p
  have onGrid (p : Pot) : entered rows p ∈ Grid ((10 : ℚ) ^ (-4 : ℤ)) := deltaSum_grid _
  obtain ⟨same, small⟩ := round_total (grid_add (onGrid .operating) (onGrid .reserve)) (by
    have triangle := abs_add_le (entered rows .operating) (entered rows .reserve)
    linarith)
  obtain ⟨part, added, partValue⟩ := add_ok (value .operating) (value .reserve) small
  rw [same] at partValue
  obtain ⟨same, small⟩ := round_total (x := deltaSum rows) (deltaSum_grid rows) (by
    have bound := short.deltaSum_le
    linarith)
  rw [deltaSum_pots] at same small
  obtain ⟨total, added', totalValue⟩ := add_ok partValue (value .growth) small
  rw [same, ← deltaSum_pots] at totalValue
  refine ⟨total, ?_, totalValue⟩
  change (b.operating.add defaultContext b.reserve >>= _) = _
  rw [show b.operating.add defaultContext b.reserve = .ok part from added]
  exact added'

theorem difference_exact {d e : Decimal} {rows rows' : Ledger} (short : Short rows)
    (short' : Short rows') (hd : d.HasValue (deltaSum rows)) (he : e.HasValue (deltaSum rows')) :
    ∃ drift, (do (← d.sub defaultContext e).abs defaultContext) = .ok drift ∧
      drift.HasValue |deltaSum rows - deltaSum rows'| := by
  have bound := short.deltaSum_le
  have bound' := short'.deltaSum_le
  have triangle := abs_sub (deltaSum rows) (deltaSum rows')
  obtain ⟨same, small⟩ := round_total (grid_sub (deltaSum_grid rows) (deltaSum_grid rows'))
    (by linarith)
  obtain ⟨diff, subtracted, value⟩ := sub_ok hd he small
  rw [same] at value
  obtain ⟨drift, positive, driftValue⟩ := abs_ok value small
  refine ⟨drift, ?_, ?_⟩
  · rw [subtracted]
    exact positive
  · obtain ⟨same, _⟩ := round_total (x := |deltaSum rows - deltaSum rows'|) (by
      rcases abs_choice (deltaSum rows - deltaSum rows') with eq | eq
      · rw [eq]
        exact grid_sub (deltaSum_grid rows) (deltaSum_grid rows')
      · rw [eq]
        exact grid_neg (grid_sub (deltaSum_grid rows) (deltaSum_grid rows'))) (by
      rw [abs_abs]
      linarith)
    rw [same] at driftValue
    exact driftValue

theorem ledgerDrift_exact {b : PotBalances} {sum : Decimal} {rows rows' : Ledger}
    (short : Short rows) (short' : Short rows') (report : Reports b rows)
    (total : sum.HasValue (deltaSum rows')) :
    ∃ drift, ledgerDrift b sum = .ok drift ∧
      drift.HasValue |deltaSum rows - deltaSum rows'| := by
  obtain ⟨balances, added, value⟩ := totalBalances_exact short report
  obtain ⟨drift, run, driftValue⟩ := difference_exact short short' value total
  refine ⟨drift, ?_, driftValue⟩
  change (totalBalances b >>= _) = _
  rw [added]
  exact run

theorem checkDrift_exact (D : Database) {rows : Ledger} {meanwhile : Ledger → Ledger}
    (short : Short rows) (short' : Short (meanwhile rows)) :
    Ensures (checkDrift D meanwhile) rows
      (fun drift t => t = meanwhile rows ∧
        drift.HasValue |deltaSum (meanwhile rows) - deltaSum rows|)
      fun _ _ => False := by
  obtain ⟨b, run, report⟩ := balance_reports rows
  obtain ⟨total, added, value⟩ := totalBalances_exact short report
  have entries : (Decimal.finite (D.sumDelta (meanwhile rows))).HasValue
      (deltaSum (meanwhile rows)) := ⟨_, rfl, D.sumDelta_exact _⟩
  obtain ⟨drift, subtracted, driftValue⟩ := difference_exact short' short entries value
  apply ensures_bind
  apply ensures_mono ensures_outcome _ fun _ _ raised => by
    rw [run] at raised
    cases raised
  intro b' t read
  rw [run] at read
  cases read
  apply ensures_bind
  apply ensures_modify
  apply ensures_bind
  apply ensures_get
  apply ensures_bind
  rw [added]
  apply ensures_attempt_ok
  rw [subtracted]
  exact ensures_attempt_ok ⟨rfl, driftValue⟩

/-- Reconciliation never raises. Its drift is exactly the money by which the table
    changed between the two readings, and `ledger_drift` finds the same. -/
theorem reconciliation_exact (D : Database) (rows : Ledger) (meanwhile : Ledger → Ledger)
    (short : Short rows) (short' : Short (meanwhile rows)) :
    ∃ drift, outcome (checkDrift D meanwhile) rows = (.ok drift, meanwhile rows) ∧
      drift.HasValue |deltaSum (meanwhile rows) - deltaSum rows| ∧
      ∀ b sum, (outcome balance rows).1 = .ok b → sum.HasValue (deltaSum (meanwhile rows)) →
        ∃ drift', ledgerDrift b sum = .ok drift' ∧
          drift'.HasValue |deltaSum (meanwhile rows) - deltaSum rows| := by
  obtain ⟨drift, returned, left, value⟩ := returns_of_ensures (checkDrift_exact D short short')
  refine ⟨drift, Prod.ext returned left, value, ?_⟩
  intro b sum read total
  obtain ⟨b', run, report⟩ := balance_reports rows
  rw [run] at read
  cases read
  rw [abs_sub_comm]
  exact ledgerDrift_exact short short' report total

def exactDatabase : Database where
  sumDelta rows := rows.foldl (fun total r => Context.exactSum total r.delta) (.ofNat 0)
  sumDelta_exact rows := by
    induction rows using List.reverseRecOn with
    | nil => simp [deltaSum, FiniteDecimal.toRat, FiniteDecimal.ofNat, FiniteDecimal.signed]
    | append_singleton rows row ih =>
      rw [List.foldl_append, List.foldl_cons, List.foldl_nil, Context.exactSum_toRat, ih,
        deltaSum_append, deltaSum_singleton]

def lateTopUp (rows : Ledger) : Ledger :=
  step runnablePlatform motherService rows (.credit .operating (.ofNat 40) .manualTopup none "")

theorem drift_of_late_inflow : ∃ drift,
    outcome (checkDrift exactDatabase lateTopUp) (lateTopUp []) = (.ok drift, lateTopUp (lateTopUp [])) ∧
      drift.HasValue 40 := by
  have once : Short (lateTopUp []) := by
    unfold Short
    decide +kernel
  have twice : Short (lateTopUp (lateTopUp [])) := by
    unfold Short
    decide +kernel
  obtain ⟨drift, run, value, _⟩ := reconciliation_exact exactDatabase (lateTopUp []) lateTopUp once twice
  have found : |deltaSum (lateTopUp (lateTopUp [])) - deltaSum (lateTopUp [])| = 40 := by decide +kernel
  rw [found] at value
  exact ⟨drift, run, value⟩

end CashflowLedger
