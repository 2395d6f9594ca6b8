import AgentEcosystem.Decimal.DecimalValues
import AgentEcosystem.Schemas
import AgentEcosystem.Semantics.Raising
import Mathlib.Logic.Function.Basic

/-!
The three-pot ledger. Rows are only ever appended, and a balance is what adding
up the rows of a pot reports, each addition in the default decimal context.
A call that raises keeps the rows it wrote before.
-/
namespace CashflowLedger
open AgentSchemas DecimalArithmetic NearestRounding Raising

def operatingSplit : Decimal := .finite ⟨false, 60, -2⟩
def reserveSplit : Decimal := .finite ⟨false, 25, -2⟩
def growthSplit : Decimal := .finite ⟨false, 15, -2⟩
def operatingHardFloorUsd : Decimal := .ofNat 50
def reserveInviolate : Bool := true
def growthCapPctOf90dRevenue : Decimal := .finite ⟨false, 30, -2⟩

/-- A number with at most `places` fractional digits and `maxDigits - places` whole ones. -/
def FitsField (maxDigits places : ℕ) (x : FiniteDecimal) : Prop :=
  x.toRat ∈ Grid ((10 : ℚ) ^ (-places : ℤ)) ∧ |x.toRat| < 10 ^ (maxDigits - places : ℤ)

/-- What the ledger uses from outside the repository: the hex digest of a keyed
    hash of (secret, message), and the validation library's check of a decimal
    field with `max_digits` and `decimal_places`, which rejects NaN and infinities
    and does not count trailing zeros. -/
structure Platform where
  hmacHexdigest : String → String → String
  acceptsDecimal : ℕ → ℕ → Decimal → Bool
  acceptsDecimal_iff : ∀ maxDigits places d, acceptsDecimal maxDigits places d = true ↔
    ∃ x, d = .finite x ∧ FitsField maxDigits places x

inductive LedgerError where
  | valueError (msg : String)
  | insufficientFunds (msg : String)
  | reserveLocked (msg : String)
  | badHMAC (msg : String)
  | trustViolation (msg : String)
  | typeError (msg : String)
  | validationError (fields : List String)
  | decimalSignal (signal : Signal)
  deriving DecidableEq, Repr

def deltaMaxDigits : ℕ := 12
def deltaDecimalPlaces : ℕ := 4
def noteMaxLength : ℕ := 512

/-- A validated entry. Its id and its time stamp come from outside and are read
    by no operation here. -/
structure CashflowEntry where
  pot : Pot
  delta : FiniteDecimal
  source : CashflowSource
  refId : Option String
  note : String
  delta_fits : FitsField deltaMaxDigits deltaDecimalPlaces delta
  note_fits : note.length ≤ noteMaxLength

def CashflowEntry.validate (P : Platform) (pot : Pot) (delta : Decimal) (source : CashflowSource)
    (refId : Option String) (note : String) : Except LedgerError CashflowEntry :=
  let noteErrors := if note.length ≤ noteMaxLength then [] else ["note"]
  match delta with
  | .finite x =>
    if hx : P.acceptsDecimal deltaMaxDigits deltaDecimalPlaces (.finite x) = true then
      if hn : note.length ≤ noteMaxLength then
        .ok ⟨pot, x, source, refId, note, by
          obtain ⟨y, eq, fits⟩ := (P.acceptsDecimal_iff _ _ _).mp hx
          cases eq
          exact fits, hn⟩
      else .error (.validationError noteErrors)
    else .error (.validationError ("delta" :: noteErrors))
  | _ => .error (.validationError ("delta" :: noteErrors))

structure LedgerRow extends CashflowEntry where
  writtenBy : AgentTier

abbrev Ledger := List LedgerRow

def motherOnlyWriters : List AgentTier := [.mother]

/-- The single writer. It cannot be built for any other tier. -/
structure CashflowService where
  tier : AgentTier
  mother : tier ∈ motherOnlyWriters

structure PotBalances where
  operating : Decimal
  reserve : Decimal
  growth : Decimal

def PotBalances.get (b : PotBalances) : Pot → Decimal
  | .operating => b.operating
  | .reserve => b.reserve
  | .growth => b.growth

def addRow (sums : Pot → Decimal) (r : LedgerRow) : Except Signal (Pot → Decimal) := do
  let v ← (sums r.pot).add defaultContext (.finite r.delta)
  return Function.update sums r.pot v

def balance : Raising LedgerError Ledger PotBalances := do
  let rows ← get
  let sums ← attempt .decimalSignal (rows.foldlM addRow fun _ => .ofNat 0)
  return ⟨sums .operating, sums .reserve, sums .growth⟩

/-- `PotSnapshot` has the fields of `PotBalances` and its lookup by pot. -/
def snapshot : Raising LedgerError Ledger PotBalances := balance

def assertDebitAllowed (pot : Pot) (delta : Decimal) (source : CashflowSource) :
    Raising LedgerError Ledger Unit := do
  let snap ← snapshot
  let newBalance ← attempt .decimalSignal ((snap.get pot).add defaultContext delta)
  match pot with
  | .operating =>
    if ← attempt .decimalSignal (newBalance.lt operatingHardFloorUsd) then
      throw (.insufficientFunds (s!"Operating debit would breach hard floor " ++
        s!"(${operatingHardFloorUsd.str}); balance after={newBalance.str}"))
  | .reserve =>
    if source ≠ .emergencyTransferReserveToOperating then
      throw (.reserveLocked "Reserve pot is inviolate; only emergency_transfer may debit.")
  | .growth =>
    if ← attempt .decimalSignal (newBalance.lt (.ofNat 0)) then
      throw (.insufficientFunds "Growth pot cannot go negative")

section Writes
variable (P : Platform) (svc : CashflowService)

def record (pot : Pot) (delta : Decimal) (source : CashflowSource) (refId : Option String)
    (note : String) : Raising LedgerError Ledger CashflowEntry := do
  if ← attempt .decimalSignal (delta.eq (.ofNat 0)) then
    throw (.valueError "cashflow delta must be non-zero")
  if ← attempt .decimalSignal (delta.lt (.ofNat 0)) then
    assertDebitAllowed pot delta source
  let entry ← attempt id (CashflowEntry.validate P pot delta source refId note)
  modify fun rows => rows ++ [{ entry with writtenBy := svc.tier }]
  return entry

def debit (pot : Pot) (amountUsd : Decimal) (source : CashflowSource) (refId : Option String)
    (note : String) : Raising LedgerError Ledger CashflowEntry := do
  if ← attempt .decimalSignal (amountUsd.le (.ofNat 0)) then
    throw (.valueError "debit must be a positive amount")
  record P svc pot (← attempt .decimalSignal (amountUsd.neg defaultContext)) source refId note

def credit (pot : Pot) (amountUsd : Decimal) (source : CashflowSource) (refId : Option String)
    (note : String) : Raising LedgerError Ledger CashflowEntry := do
  if ← attempt .decimalSignal (amountUsd.le (.ofNat 0)) then
    throw (.valueError "credit must be a positive amount")
  record P svc pot amountUsd source refId note

end Writes

/-- The exponent of `Decimal("0.0001")`. -/
def fourPlaces : ℤ := -4

def growthCapFromTrailingRevenue (trailing90dRevenueUsd : Decimal) : Except Signal Decimal := do
  (← trailing90dRevenueUsd.mul defaultContext growthCapPctOf90dRevenue).quantize
    defaultContext fourPlaces

structure InflowSplit where
  operating : Decimal
  reserve : Decimal
  growth : Decimal

def share (amountUsd split : Decimal) : Except Signal Decimal := do
  (← amountUsd.mul defaultContext split).quantize defaultContext fourPlaces

/-- Overflow rule of one capped pot: what passes the cap moves from the pot's
    part to Operating's. Returns (Operating's part, the pot's part). -/
def rollOverflow (current : Decimal) (cap : Option Decimal) (opAmt part : Decimal) :
    Except Signal (Decimal × Decimal) :=
  match cap with
  | none => .ok (opAmt, part)
  | some cap => do
    let filled ← current.add defaultContext part
    if ← cap.lt filled then
      let overflow ← filled.sub defaultContext cap
      let part ← part.sub defaultContext overflow
      let opAmt ← opAmt.add defaultContext overflow
      return (opAmt, part)
    else return (opAmt, part)

def splitInflow (amountUsd currentReserve : Decimal) (reserveCap : Option Decimal)
    (currentGrowth : Decimal) (growthCap : Option Decimal) : Except Signal InflowSplit := do
  let opAmt ← share amountUsd operatingSplit
  let resAmt ← share amountUsd reserveSplit
  let grAmt ← share amountUsd growthSplit
  let parts ← (← opAmt.add defaultContext resAmt).add defaultContext grAmt
  let residue ← amountUsd.sub defaultContext parts
  let opAmt ← opAmt.add defaultContext residue
  let (opAmt, resAmt) ← rollOverflow currentReserve reserveCap opAmt resAmt
  let (opAmt, grAmt) ← rollOverflow currentGrowth growthCap opAmt grAmt
  return ⟨← opAmt.quantize defaultContext fourPlaces, ← resAmt.quantize defaultContext fourPlaces,
    ← grAmt.quantize defaultContext fourPlaces⟩

section Composites
variable (P : Platform) (svc : CashflowService)

/-- A part that is not positive is not recorded; Operating's entry stands in for it. -/
def creditPositive (pot : Pot) (part : Decimal) (source : CashflowSource)
    (refId : Option String) (opEntry : CashflowEntry) :
    Raising LedgerError Ledger CashflowEntry := do
  if ← attempt .decimalSignal ((Decimal.ofNat 0).lt part) then
    credit P svc pot part source refId ""
  else return opEntry

def splitAndRecordInflow (amountUsd : Decimal) (source : CashflowSource)
    (refId : Option String) (reserveCap : Option Decimal) (trailing90dRevenue : Decimal) :
    Raising LedgerError Ledger (CashflowEntry × CashflowEntry × CashflowEntry) := do
  let snap ← snapshot
  let growthCap ← attempt .decimalSignal (growthCapFromTrailingRevenue trailing90dRevenue)
  let s ← attempt .decimalSignal
    (splitInflow amountUsd snap.reserve reserveCap snap.growth (some growthCap))
  let opEntry ← credit P svc .operating s.operating source refId ""
  let resEntry ← creditPositive P svc .reserve s.reserve source refId opEntry
  let grEntry ← creditPositive P svc .growth s.growth source refId opEntry
  return (opEntry, resEntry, grEntry)

def emergencyMessage (amountUsd : Decimal) (dateIso : String) : String :=
  s!"{amountUsd.str}|{dateIso}"

/-- `hmac.compare_digest` on two strings. -/
def compareDigest (a b : String) : Except LedgerError Bool :=
  if a.toList.all (fun c => c.toNat < 128) && b.toList.all (fun c => c.toNat < 128) then
    .ok (a == b)
  else .error (.typeError "comparing strings with non-ASCII characters is not supported")

def verifyEmergencyHmac (secret : String) (amountUsd : Decimal) (dateIso signature : String) :
    Except LedgerError Bool :=
  compareDigest (P.hmacHexdigest secret (emergencyMessage amountUsd dateIso)) signature

def emergencyNote (dateIso : String) : String := s!"signed EMERGENCY_TRANSFER {dateIso}"

def emergencyTransferReserveToOperating (amountUsd : Decimal)
    (dateIso signature operatorSecret : String) :
    Raising LedgerError Ledger (CashflowEntry × CashflowEntry) := do
  if !reserveInviolate then
    throw (.trustViolation "RESERVE_INVIOLATE flipped off — this is never allowed")
  if !(← attempt id (verifyEmergencyHmac P operatorSecret amountUsd dateIso signature)) then
    throw (.badHMAC "EMERGENCY_TRANSFER signature invalid")
  if ← attempt .decimalSignal (amountUsd.le (.ofNat 0)) then
    throw (.valueError "amount must be positive")
  let out ← record P svc .reserve (← attempt .decimalSignal (amountUsd.neg defaultContext))
    .emergencyTransferReserveToOperating none (emergencyNote dateIso)
  let inn ← record P svc .operating amountUsd
    .emergencyTransferReserveToOperating none (emergencyNote dateIso)
  return (out, inn)

end Composites

inductive Call where
  | record (pot : Pot) (delta : Decimal) (source : CashflowSource) (refId : Option String)
      (note : String)
  | debit (pot : Pot) (amountUsd : Decimal) (source : CashflowSource) (refId : Option String)
      (note : String)
  | credit (pot : Pot) (amountUsd : Decimal) (source : CashflowSource) (refId : Option String)
      (note : String)
  | splitAndRecordInflow (amountUsd : Decimal) (source : CashflowSource) (refId : Option String)
      (reserveCap : Option Decimal) (trailing90dRevenue : Decimal)
  | emergencyTransfer (amountUsd : Decimal) (dateIso signature operatorSecret : String)

def step (P : Platform) (svc : CashflowService) (rows : Ledger) : Call → Ledger
  | .record pot delta source refId note => after (record P svc pot delta source refId note) rows
  | .debit pot amount source refId note => after (debit P svc pot amount source refId note) rows
  | .credit pot amount source refId note => after (credit P svc pot amount source refId note) rows
  | .splitAndRecordInflow amount source refId reserveCap trailing =>
      after (splitAndRecordInflow P svc amount source refId reserveCap trailing) rows
  | .emergencyTransfer amount dateIso signature secret =>
      after (emergencyTransferReserveToOperating P svc amount dateIso signature secret) rows

end CashflowLedger
