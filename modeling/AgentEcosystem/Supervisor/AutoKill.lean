import AgentEcosystem.Decimal.HasValue
import AgentEcosystem.Supervisor.KilledChildren

/-!
The kill rules and the order in which a verdict looks at them. The first rule that
holds decides, and the first one it looks at is the budget's, which pauses.
-/
namespace ChildSupervisor
open AgentSchemas DecimalArithmetic OrderedDict Raising Runs

namespace ChildEntry

def NoRevenue (e : ChildEntry) : Prop := e.run.revenueMtdUsd.eq (.ofNat 0) = .ok true

def BurntOut (e : ChildEntry) : Prop :=
  Decimal.le (.finite e.kill.maxBurnBeforeFirstDollarUsd) e.cumulativeSpendUsd = .ok true ∧
    e.NoRevenue

def PastDeadline (e : ChildEntry) (now : Datetime) : Prop :=
  ∃ days, now.daysSince e.run.spawnedAt = .ok days ∧
    (e.kill.maxDaysToFirstDollar : ℤ) ≤ max 0 days ∧ e.NoRevenue

def BelowTarget (e : ChildEntry) (now : Datetime) : Prop :=
  ∃ days, now.daysSince e.run.spawnedAt = .ok days ∧ 30 ≤ max 0 days ∧
    e.run.revenueMtdUsd.lt (.finite e.kill.minRevenueByDay30Usd) = .ok true

def KillRuleHolds (e : ChildEntry) (now : Datetime) : Prop :=
  e.BurntOut ∨ e.PastDeadline now ∨ e.BelowTarget now

structure Unmasked (e : ChildEntry) (now : Datetime) : Prop where
  comparable : now.aware = e.run.spawnedAt.aware
  withinBudget : Decimal.le (.finite e.run.monthlyBudgetUsd) e.run.spentMtdUsd = .ok false
  spendIsNumber : e.cumulativeSpendUsd.isNaN = false

section Verdict
variable {e : ChildEntry} {now : Datetime} {days : ℤ} {burnt empty : Bool}

/-- The three kill rules, in the order in which they are looked at. -/
theorem verdict_within_budget (since : now.daysSince e.run.spawnedAt = .ok days)
    (budget : Decimal.le (.finite e.run.monthlyBudgetUsd) e.run.spentMtdUsd = .ok false)
    (spend : Decimal.le (.finite e.kill.maxBurnBeforeFirstDollarUsd) e.cumulativeSpendUsd =
      .ok burnt)
    (revenue : e.run.revenueMtdUsd.eq (.ofNat 0) = .ok empty) :
    e.verdict now =
      if burnt && empty then .ok ⟨.kill, "burn_without_revenue"⟩
      else if e.kill.maxDaysToFirstDollar ≤ max 0 days && empty then
        .ok ⟨.kill, "no_revenue_by_deadline"⟩
      else do
        if ← both (.ok (30 ≤ max 0 days))
            (compared (e.run.revenueMtdUsd.lt (.finite e.kill.minRevenueByDay30Usd))) then
          return ⟨.kill, "below_day30_target"⟩
        return ⟨.keep, "ok"⟩ := by
  simp only [ChildEntry.verdict, since, budget, spend, revenue, bind, Except.bind]
  cases burnt with
  | true =>
    cases empty with
    | true => rfl
    | false => cases decide ((e.kill.maxDaysToFirstDollar : ℤ) ≤ max 0 days) <;> rfl
  | false => cases decide ((e.kill.maxDaysToFirstDollar : ℤ) ≤ max 0 days) <;> cases empty <;> rfl

theorem revenue_compared (holds : e.KillRuleHolds now) :
    ∃ empty, e.run.revenueMtdUsd.eq (.ofNat 0) = .ok empty := by
  rcases holds with ⟨_, none⟩ | ⟨_, _, _, none⟩ | ⟨_, _, _, below⟩
  · exact ⟨true, none⟩
  · exact ⟨true, none⟩
  · have numbers := Decimal.lt_ok_iff.mp ⟨true, below⟩
    have quiet := Decimal.quiet_of_not_nan (Bool.or_eq_false_iff.mp numbers).1
    exact Decimal.eq_ok_iff.mpr (by rw [quiet]; rfl)

theorem kills_of_unmasked (holds : e.KillRuleHolds now) (unmasked : e.Unmasked now) :
    ∃ reason, e.verdict now = .ok ⟨.kill, reason⟩ := by
  obtain ⟨days, since⟩ := daysSince_of_aware unmasked.comparable
  obtain ⟨burnt, spend⟩ : ∃ burnt, Decimal.le (.finite e.kill.maxBurnBeforeFirstDollarUsd)
      e.cumulativeSpendUsd = .ok burnt :=
    Decimal.le_ok_iff.mpr (by rw [unmasked.spendIsNumber]; rfl)
  obtain ⟨empty, revenue⟩ := revenue_compared holds
  rw [verdict_within_budget since unmasked.withinBudget spend revenue]
  by_cases first : (burnt && empty) = true
  · exact ⟨_, if_pos first⟩
  · rw [if_neg first]
    by_cases second : (decide ((e.kill.maxDaysToFirstDollar : ℤ) ≤ max 0 days) && empty) = true
    · exact ⟨_, if_pos second⟩
    · rw [if_neg second]
      rcases holds with ⟨out, none⟩ | ⟨days', since', late, none⟩ | ⟨days', since', old, below⟩
      · rw [spend] at out
        rw [NoRevenue, revenue] at none
        cases out
        cases none
        exact absurd rfl first
      · rw [since] at since'
        rw [NoRevenue, revenue] at none
        cases since'
        cases none
        rw [decide_eq_true late] at second
        exact absurd rfl second
      · rw [since] at since'
        cases since'
        rw [below, decide_eq_true old]
        exact ⟨_, rfl⟩

theorem unmasked_of_kill {reason : String} (h : e.verdict now = .ok ⟨.kill, reason⟩) :
    e.Unmasked now := by
  obtain ⟨days, since, h⟩ := ok_of_bind h
  obtain ⟨breached, budget, h⟩ := ok_of_bind h
  cases breached with
  | true => cases h
  | false =>
    obtain ⟨burnt, first, _⟩ := ok_of_bind h
    obtain ⟨spent, spend, _⟩ := ok_of_bind first
    have numbers := Decimal.le_ok_iff.mp ⟨spent, compared_ok spend⟩
    exact ⟨daysSince_ok since, compared_ok budget, (Bool.or_eq_false_iff.mp numbers).2⟩

end Verdict

end ChildEntry

section Evaluate
variable (s : Children) (childId : Uuid) (now : Option Datetime) (clock : ℤ)

theorem evaluate_found {s : Children} {childId : Uuid} {e : ChildEntry}
    (found : s.get childId = some e) :
    (outcome (evaluate childId now clock) s).1 = e.verdict (orClock now clock) := by
  rw [evaluate, outcome_bind, outcome_getEntry found]
  rcases judged : e.verdict (orClock now clock) with error | decision
  · simp only [judged]
    rfl
  · simp only [judged]
    rfl

def AutoKills : Prop :=
  ∀ e, s.get childId = some e → e.KillRuleHolds (orClock now clock) →
    ∃ reason, (outcome (evaluate childId now clock) s).1 = .ok ⟨.kill, reason⟩

/-- A kill rule kills exactly when the budget has not been reached and the amounts and
    times that are looked at before it can be compared. -/
theorem autoKills_iff : AutoKills s childId now clock ↔
    ∀ e, s.get childId = some e → e.KillRuleHolds (orClock now clock) →
      e.Unmasked (orClock now clock) := by
  constructor
  · intro kills e found holds
    obtain ⟨reason, decided⟩ := kills e found holds
    rw [evaluate_found now clock found] at decided
    exact ChildEntry.unmasked_of_kill decided
  · intro unmasked e found holds
    rw [evaluate_found now clock found]
    exact ChildEntry.kills_of_unmasked holds (unmasked e found holds)

end Evaluate

/-- A child that spent its whole budget without any revenue is paused. -/
theorem burnt_out_child_paused :
    ¬ AutoKills (run step Dict.empty [.register (budgetRun (.ofNat 0)) usualCriteria,
      .recordSpend ⟨0xc1⟩ (.ofNat 100)]) ⟨0xc1⟩ (some (.utc 0)) 0 := by
  intro kills
  obtain ⟨reason, decided⟩ := kills _ rfl (.inl ⟨rfl, rfl⟩)
  cases decided

end ChildSupervisor
