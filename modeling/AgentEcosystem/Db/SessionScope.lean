import AgentEcosystem.Cashflow.ErrorAtomicity
import AgentEcosystem.Cashflow.Reconciliation
import AgentEcosystem.Semantics.Transactions

/-!
Database sessions. `session_scope` commits what a block of calls wrote if none of
them raised and rolls back otherwise, so a transfer that took from Reserve and then
raised never reaches the database.
-/
namespace SessionScope
open AgentSchemas DecimalArithmetic NearestRounding Raising Decimal Runs Transactions
open CashflowLedger

/-- `session_scope` around a body that works with the session's table. The commit of
    the database may raise, and that is rolled back too. -/
def sessionScope {α : Type} (commit : Ledger → Except LedgerError Unit)
    (body : Raising LedgerError Ledger α) : Raising LedgerError Ledger α := transact commit body

section Calls
variable (P : Platform) (svc : CashflowService)

def perform : Call → Raising LedgerError Ledger Unit
  | .record pot delta source refId note => do
    let _ ← record P svc pot delta source refId note
  | .debit pot amount source refId note => do
    let _ ← debit P svc pot amount source refId note
  | .credit pot amount source refId note => do
    let _ ← credit P svc pot amount source refId note
  | .splitAndRecordInflow amount source refId reserveCap trailing => do
    let _ ← splitAndRecordInflow P svc amount source refId reserveCap trailing
  | .emergencyTransfer amount dateIso signature secret => do
    let _ ← emergencyTransferReserveToOperating P svc amount dateIso signature secret

def performAll (calls : List Call) : Raising LedgerError Ledger Unit :=
  calls.foldlM (fun _ call => perform P svc call) ()

end Calls

section Blocks
variable (P : Platform) (svc : CashflowService)

end Blocks

structure Scope where
  commit : Ledger → Except LedgerError Unit
  calls : List Call

section Committed
variable (P : Platform) (svc : CashflowService)

def Scope.close (rows : Ledger) (scope : Scope) : Ledger :=
  after (sessionScope scope.commit (performAll P svc scope.calls)) rows

end Committed

end SessionScope
