import AgentEcosystem.Cashflow.LedgerRuns
import AgentEcosystem.Cashflow.Reconciliation
import AgentEcosystem.Semantics.GuardedAccounts

/-!
The ledger as a bank with three accounts. Below 10¹⁵ rows the rounded balances of
the service are the exact balances of the bank, its guard asks what the rules of
the accounts ask, and so the table replays as a legal history of the bank.
-/
namespace CashflowLedger
open AgentSchemas DecimalArithmetic NearestRounding Raising Decimal Runs GuardedAccounts

/-- The purpose of the three pots: Operating pays while the floor is left, Reserve
    pays under the emergency source only, Growth pays what it has. -/
def potRules : Pot → Rule ℚ CashflowSource
  | .operating => .floor operatingFloor
  | .reserve => .reserved (· = .emergencyTransferReserveToOperating)
  | .growth => .floor 0

def LedgerRow.move (row : LedgerRow) : Move Pot ℚ CashflowSource :=
  ⟨row.pot, row.delta.toRat, row.source⟩

theorem round_new_balance {rows : Ledger} (short : Short rows) (p : Pot) {x : FiniteDecimal}
    (fits : FitsField deltaMaxDigits deltaDecimalPlaces x) :
    defaultContext.round (reported rows p + x.toRat) = entered rows p + x.toRat := by
  have bound := short.entered_le p
  have size := field_small fits
  have triangle := abs_add_le (entered rows p) x.toRat
  rw [reported_exact short p]
  exact round_money (grid_add (deltaSum_grid _) (field_grid fits)) (by linarith)

theorem debitAllowed_iff {rows : Ledger} (short : Short rows) (pot : Pot) {x : FiniteDecimal}
    (fits : FitsField deltaMaxDigits deltaDecimalPlaces x) (source : CashflowSource) :
    DebitAllowed rows pot x.toRat source ↔
      (potRules pot).Permits (entered rows pot + x.toRat) source := by
  cases pot with
  | operating =>
    unfold DebitAllowed
    rw [round_new_balance short .operating fits]
    rfl
  | reserve => rfl
  | growth =>
    unfold DebitAllowed
    rw [round_new_balance short .growth fits]
    rfl

/-- The service writes what the bank allows. -/
theorem admits_iff_allows {rows : Ledger} (short : Short rows) (pot : Pot) {x : FiniteDecimal}
    (fits : FitsField deltaMaxDigits deltaDecimalPlaces x) (source : CashflowSource)
    {note : String} (noteFits : note.length ≤ noteMaxLength) :
    Admits rows pot x source note ↔ Allows potRules (entered rows) ⟨pot, x.toRat, source⟩ := by
  constructor
  · intro adm
    exact ⟨adm.nonzero, fun out => (debitAllowed_iff short pot fits source).mp (adm.allowed out)⟩
  · intro allows
    refine ⟨allows.nonzero, fun out => ?_, fits, noteFits⟩
    exact (debitAllowed_iff short pot fits source).mpr (allows.permitted out)

theorem entered_post (rows : Ledger) (row : LedgerRow) :
    entered (append rows row) = post (entered rows) row.move := by
  funext p
  rw [post_apply, append, entered_append]
  rfl

theorem replay (rows new : List LedgerRow) :
    run post (entered rows) (new.map LedgerRow.move) = entered (rows ++ new) := by
  induction new generalizing rows with
  | nil => rw [List.append_nil]; rfl
  | cons row new ih =>
    rw [List.map_cons, run_cons, ← entered_post, ih, append, List.append_assoc]
    rfl

theorem replay_legal (rows new : List LedgerRow) (short : Short (rows ++ new))
    (admitted : Meets append AdmitsRow rows new) :
    Legal potRules (entered rows) (new.map LedgerRow.move) := by
  induction new generalizing rows with
  | nil => trivial
  | cons row new ih =>
    obtain ⟨adm, later⟩ := admitted
    have whole : append rows row ++ new = rows ++ row :: new := List.append_cons .. |>.symm
    constructor
    · exact (admits_iff_allows short.prefix row.pot row.delta_fits row.source row.note_fits).mp adm
    · rw [← entered_post]
      exact ih (append rows row) (whole ▸ short) later

section Runs
variable (P : Platform) (svc : CashflowService)

theorem run_admitted (calls : List Call) :
    Meets append AdmitsRow [] (run (step P svc) [] calls) := by
  induction calls using List.reverseRecOn with
  | nil => trivial
  | append_singleton calls call ih =>
    rw [run_append]
    obtain ⟨new, eq, writes⟩ := step_writes P svc (run (step P svc) [] calls) call
    change Meets append AdmitsRow [] (step P svc (run (step P svc) [] calls) call)
    rw [eq, meets_append, run_appends]
    exact ⟨ih, writes.admitted⟩

theorem record_returns_iff (rows : Ledger) (pot : Pot) (x : FiniteDecimal)
    (source : CashflowSource) (refId : Option String) (note : String) :
    (outcome (record P svc pot (.finite x) source refId note) rows).1.isOk = true ↔
      Admits rows pot x source note := by
  have spec := record_spec P svc rows pot source refId note (.finite x)
  rcases run : outcome (record P svc pot (.finite x) source refId note) rows with ⟨err | entry, t⟩
  · obtain ⟨_, refused⟩ := ensures_of_raises spec run
    constructor
    · intro ok
      cases ok
    · intro adm
      exact absurd adm (refused x rfl)
  · obtain ⟨fields, adm, _⟩ := ensures_of_returns spec run
    have same := fields.delta
    cases same
    exact ⟨fun _ => adm, fun _ => rfl⟩

/-- The table a run leaves behind is a legal history of the bank that ends in the
    reported balances, and `record` takes the next row exactly when the bank does. -/
theorem ledger_refines_bank (calls : List Call)
    (short : Short (run (step P svc) [] calls)) :
    let rows := run (step P svc) [] calls
    Legal potRules 0 (rows.map LedgerRow.move) ∧
    run post 0 (rows.map LedgerRow.move) = reported rows ∧
    ∀ pot x source refId note, FitsField deltaMaxDigits deltaDecimalPlaces x →
      note.length ≤ noteMaxLength →
      ((outcome (record P svc pot (.finite x) source refId note) rows).1.isOk = true ↔
        Allows potRules (reported rows) ⟨pot, x.toRat, source⟩) := by
  intro rows
  have start : entered [] = 0 := rfl
  have balances : reported rows = entered rows := funext (reported_exact short)
  refine ⟨?_, ?_, ?_⟩
  · rw [← start]
    exact replay_legal [] rows short (run_admitted P svc calls)
  · rw [← start, replay, balances]
    rfl
  · intro pot x source refId note fits noteFits
    rw [record_returns_iff, balances]
    exact admits_iff_allows short pot fits source noteFits

end Runs

def refusedThenPaid : List Call :=
  [.credit .operating (.ofNat 200) .manualTopup none "",
    .debit .operating (.ofNat 151) .costInfra none "",
    .debit .operating (.ofNat 150) .costInfra none ""]

theorem bank_of_refusedThenPaid :
    Legal potRules 0 ((run (step runnablePlatform motherService) [] refusedThenPaid).map
      LedgerRow.move) ∧
    reported (run (step runnablePlatform motherService) [] refusedThenPaid) .operating = 50 := by
  have short : Short (run (step runnablePlatform motherService) [] refusedThenPaid) := by
    unfold Short
    decide +kernel
  obtain ⟨legal, _, _⟩ := ledger_refines_bank runnablePlatform motherService refusedThenPaid short
  exact ⟨legal, by decide +kernel⟩

end CashflowLedger
