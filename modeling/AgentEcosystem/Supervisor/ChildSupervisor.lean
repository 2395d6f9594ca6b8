import AgentEcosystem.Decimal.ContextArithmetic
import AgentEcosystem.Schemas
import AgentEcosystem.Semantics.OrderedDict
import AgentEcosystem.Semantics.Raising
import Mathlib.Data.Rat.Defs
import Mathlib.Algebra.Order.Ring.Rat

/-!
The supervisor of the children: its registry, what it records about a child, what
it decides and what pausing and killing do. An operation that raises keeps what it
has written up to there.
-/
namespace ChildSupervisor
open AgentSchemas DecimalArithmetic OrderedDict Raising

/-- Which `tzinfo` object stands behind a reading, and the offset it gives for it. -/
structure TzInfo where
  object : ℕ
  utcoffset : ℤ
  deriving DecidableEq, Repr

/-- A reading of a wall clock in microseconds; without a `tzinfo` it is naive. -/
structure Datetime where
  wall : ℤ
  tzinfo : Option TzInfo
  deriving DecidableEq, Repr

def Datetime.aware (d : Datetime) : Bool := d.tzinfo.isSome

/-- A reading in `timezone.utc`. -/
def Datetime.utc (micros : ℤ) : Datetime := ⟨micros, some ⟨0, 0⟩⟩

inductive Seconds where
  | finite (value : ℚ)
  | infinite (negative : Bool)
  | nan
  deriving DecidableEq, Repr

/-- `elapsed > deadline` -/
def Seconds.exceededBy : Seconds → ℚ → Bool
  | .finite deadline, elapsed => decide (deadline < elapsed)
  | .infinite negative, _ => negative
  | .nan, _ => false

inductive SupervisorError where
  /-- `duplicate child id` -/
  | duplicateChildId
  /-- `unknown child {child_id}` -/
  | unknownChild (childId : Uuid)
  /-- `kill_all exceeded {deadline_seconds}s: {elapsed:.2f}s` -/
  | deadlineExceeded (deadline : Seconds) (elapsed : ℚ)
  /-- The arithmetic of the amounts trapped. -/
  | decimalSignal (signal : Signal)
  /-- `TypeError`: one clock reading knows its offset and the other does not. -/
  | mixedDatetimes
  deriving DecidableEq, Repr

inductive ChildStatus where
  | starting | live | paused | killed | archived
  deriving DecidableEq, Repr

/-- The amounts month to date are those of the copies `model_copy` makes, which
    are not validated again. -/
structure ChildRun where
  id : Uuid
  verticalId : Uuid
  preregistrationId : Uuid
  spawnedAt : Datetime
  status : ChildStatus
  monthlyBudgetUsd : FiniteDecimal
  spentMtdUsd : Decimal := .ofNat 0
  revenueMtdUsd : Decimal := .ofNat 0
  lastHeartbeat : Datetime
  lastError : Option String := none
  budget_positive : (FiniteDecimal.ofNat 0).lt monthlyBudgetUsd = true
  budget_fits : monthlyBudgetUsd.le (.ofNat 1000) = true

structure KillCriteria where
  maxDaysToFirstDollar : ℕ
  minRevenueByDay30Usd : FiniteDecimal
  maxBurnBeforeFirstDollarUsd : FiniteDecimal
  autoKillOnBreach : Bool
  maxDays_fits : 7 ≤ maxDaysToFirstDollar ∧ maxDaysToFirstDollar ≤ 60
  minRevenue_fits : (FiniteDecimal.ofNat 0).le minRevenueByDay30Usd = true
  maxBurn_positive : (FiniteDecimal.ofNat 0).lt maxBurnBeforeFirstDollarUsd = true
  autoKill_set : autoKillOnBreach = true

structure ChildEntry where
  run : ChildRun
  kill : KillCriteria
  cumulativeSpendUsd : Decimal := .ofNat 0

inductive DecidedAction where
  | keep | kill | pause
  deriving DecidableEq, Repr

structure SupervisorDecision where
  action : DecidedAction
  reason : String := ""
  deriving DecidableEq, Repr

abbrev Children := Dict Uuid ChildEntry
abbrev Supervised := Raising SupervisorError Children

/-- `_get` -/
def getEntry (childId : Uuid) : Supervised ChildEntry := do
  match (← get).get childId with
  | some entry => return entry
  | none => throw (.unknownChild childId)

def writeEntry (childId : Uuid) (change : ChildEntry → ChildEntry) : Supervised Unit :=
  modify fun children => children.modify childId change

/-- `entry.run.model_copy(update=…)` -/
def updateRun (childId : Uuid) (update : ChildRun → ChildRun) : Supervised Unit :=
  writeEntry childId fun entry => { entry with run := update entry.run }

def register (run : ChildRun) (kill : KillCriteria) : Supervised Unit := do
  if run.id ∈ (← get).keys then
    throw .duplicateChildId
  modify fun children => children.insert run.id { run := run, kill := kill }

/-- `now or datetime.now(timezone.utc)`, where `clock` is that reading. -/
def orClock (now : Option Datetime) (clock : ℤ) : Datetime := now.getD (.utc clock)

def heartbeat (childId : Uuid) (now : Option Datetime) (clock : ℤ) : Supervised Unit := do
  let _ ← getEntry childId
  updateRun childId fun run => { run with lastHeartbeat := orClock now clock }

def sum (x y : Decimal) : Except SupervisorError Decimal :=
  (x.add defaultContext y).mapError .decimalSignal

def recordSpend (childId : Uuid) (amountUsd : Decimal) : Supervised Unit := do
  let entry ← getEntry childId
  let cumulative ← attempt id (sum entry.cumulativeSpendUsd amountUsd)
  writeEntry childId fun entry => { entry with cumulativeSpendUsd := cumulative }
  let spent ← attempt id (sum entry.run.spentMtdUsd amountUsd)
  updateRun childId fun run => { run with spentMtdUsd := spent }

def recordRevenue (childId : Uuid) (amountUsd : Decimal) : Supervised Unit := do
  let entry ← getEntry childId
  let revenue ← attempt id (sum entry.run.revenueMtdUsd amountUsd)
  updateRun childId fun run => { run with revenueMtdUsd := revenue }

def microsPerDay : ℤ := 86400000000

/-- `now - since`, in microseconds -/
def Datetime.sub (now since : Datetime) : Except SupervisorError ℤ :=
  match now.tzinfo, since.tzinfo with
  | none, none => .ok (now.wall - since.wall)
  | some zone, some zone' =>
    -- with one tzinfo object behind both, the offsets do not count
    if zone.object = zone'.object then .ok (now.wall - since.wall)
    else .ok ((now.wall - zone.utcoffset) - (since.wall - zone'.utcoffset))
  | _, _ => .error .mixedDatetimes

/-- `(now - since).days` -/
def Datetime.daysSince (now since : Datetime) : Except SupervisorError ℤ := do
  return (← now.sub since) / microsPerDay

def compared (r : Except Signal Bool) : Except SupervisorError Bool := r.mapError .decimalSignal

/-- `x and y`: the second is looked at only if the first holds. -/
def both (x y : Except SupervisorError Bool) : Except SupervisorError Bool := do
  if ← x then y else return false

def ChildEntry.verdict (entry : ChildEntry) (now : Datetime) :
    Except SupervisorError SupervisorDecision := do
  let run := entry.run
  let kc := entry.kill
  let days ← now.daysSince run.spawnedAt
  let day := max 0 days
  let noRevenue := compared (run.revenueMtdUsd.eq (.ofNat 0))
  -- rule 4: monthly budget breach
  if ← compared (Decimal.le (.finite run.monthlyBudgetUsd) run.spentMtdUsd) then
    return ⟨.pause, "monthly_budget_breach"⟩
  -- rule 3: big burn with no revenue
  let burnt := compared (Decimal.le (.finite kc.maxBurnBeforeFirstDollarUsd) entry.cumulativeSpendUsd)
  if ← both burnt noRevenue then
    return ⟨.kill, "burn_without_revenue"⟩
  -- rule 1: deadline for the first dollar
  if ← both (.ok (kc.maxDaysToFirstDollar ≤ day)) noRevenue then
    return ⟨.kill, "no_revenue_by_deadline"⟩
  -- rule 2: day-30 target
  let belowTarget := compared (run.revenueMtdUsd.lt (.finite kc.minRevenueByDay30Usd))
  if ← both (.ok (30 ≤ day)) belowTarget then
    return ⟨.kill, "below_day30_target"⟩
  return ⟨.keep, "ok"⟩

def evaluate (childId : Uuid) (now : Option Datetime) (clock : ℤ) :
    Supervised SupervisorDecision := do
  let entry ← getEntry childId
  attempt id (entry.verdict (orClock now clock))

def ChildRun.stopped (status : ChildStatus) (reason : String) (run : ChildRun) : ChildRun :=
  { run with status := status, lastError := some reason }

def pause (childId : Uuid) (reason : String := "operator") : Supervised Unit := do
  let _ ← getEntry childId
  updateRun childId (.stopped .paused reason)

def kill (childId : Uuid) (reason : String := "operator") : Supervised Unit := do
  let _ ← getEntry childId
  updateRun childId (.stopped .killed reason)

def pauseIfLive (n : ℕ) (childId : Uuid) : Supervised ℕ := do
  let entry ← getEntry childId
  if entry.run.status = .live then
    pause childId
    return n + 1
  else return n

def pauseAll : Supervised ℕ := do
  let ids := (← get).keys
  ids.foldlM pauseIfLive 0

/-- An order in which the tasks of a group may run. -/
structure TaskOrder where
  order : List Uuid → List Uuid
  perm : ∀ ids, (order ids).Perm ids

def killable : List ChildStatus := [.live, .paused, .starting]

/-- `_kill` with the counter that the tasks share. -/
def killTask (killed : ℕ) (childId : Uuid) : Supervised ℕ := do
  kill childId "kill_switch"
  return killed + 1

def killTargets (children : Children) : List Uuid :=
  (children.items.filter fun p => p.2.run.status ∈ killable).map Prod.fst

/-- The targets are chosen before the first task runs. -/
def killAll (tasks : TaskOrder) (elapsed : ℚ) (deadlineSeconds : Seconds := .finite 30) :
    Supervised (ℕ × ℚ) := do
  let targets := killTargets (← get)
  let killed ← (tasks.order targets).foldlM killTask 0
  if deadlineSeconds.exceededBy elapsed then
    throw (.deadlineExceeded deadlineSeconds elapsed)
  return (killed, elapsed)

def liveIds (children : Children) : List Uuid :=
  (children.items.filter fun p => p.2.run.status = .live).map Prod.fst

end ChildSupervisor
