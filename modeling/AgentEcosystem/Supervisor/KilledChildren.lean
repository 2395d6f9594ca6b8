import AgentEcosystem.Supervisor.ChildEffects

/-!
What becomes of a killed child. Every call but a pause leaves it killed; `pause`
does not look at the status it overwrites, nor does the verdict that leads to one.
-/
namespace ChildSupervisor
open AgentSchemas DecimalArithmetic OrderedDict Raising Runs

def Killed (s : Children) (childId : Uuid) : Prop :=
  ∃ e, s.get childId = some e ∧ e.run.status = .killed

/-- What was spent this month has reached the budget, and `now` can be compared with
    the spawn. -/
def ChildEntry.BudgetBreached (e : ChildEntry) (now : Datetime) : Prop :=
  now.aware = e.run.spawnedAt.aware ∧
    Decimal.le (.finite e.run.monthlyBudgetUsd) e.run.spentMtdUsd = .ok true

def Pauses (op : Operation) (j : Uuid) (e : ChildEntry) : Prop :=
  match op with
  | .pause childId _ => j = childId
  | .evaluate childId now clock _ => j = childId ∧ e.BudgetBreached (orClock now clock)
  | _ => False

def SparesKilled (s : Children) (op : Operation) : Prop :=
  ∀ j e, s.get j = some e → e.run.status = .killed → ¬ Pauses op j e

theorem daysSince_ok {now since : Datetime} {days : ℤ} (h : now.daysSince since = .ok days) :
    now.aware = since.aware := by
  obtain ⟨elapsed, difference, _⟩ := ok_of_bind h
  unfold Datetime.sub at difference
  unfold Datetime.aware
  split at difference
  · next naive naive' => rw [naive, naive']
  · next zone zone' aware aware' =>
    rw [aware, aware']
    rfl
  · cases difference

theorem daysSince_of_aware {now since : Datetime} (comparable : now.aware = since.aware) :
    ∃ days, now.daysSince since = .ok days := by
  have subtracts : ∃ elapsed, now.sub since = .ok elapsed := by
    unfold Datetime.aware at comparable
    unfold Datetime.sub
    split
    · exact ⟨_, rfl⟩
    · split <;> exact ⟨_, rfl⟩
    · next mixed notBoth =>
      rcases zone : now.tzinfo with _ | z
      · rcases zone' : since.tzinfo with _ | z'
        · exact absurd zone' (mixed zone)
        · simp [zone, zone'] at comparable
      · rcases zone' : since.tzinfo with _ | z'
        · simp [zone, zone'] at comparable
        · exact absurd zone' (notBoth z z' zone)
  obtain ⟨elapsed, subtracted⟩ := subtracts
  exact ⟨elapsed / microsPerDay, by rw [Datetime.daysSince, subtracted]; rfl⟩

theorem compared_ok {r : Except Signal Bool} {b : Bool} (h : compared r = .ok b) : r = .ok b :=
  ok_of_mapError h

/- The rules behind the budget rule kill or keep. -/
theorem breached_of_verdict {e : ChildEntry} {now : Datetime} {decision : SupervisorDecision}
    (h : e.verdict now = .ok decision) (pauses : decision.action = .pause) :
    e.BudgetBreached now := by
  obtain ⟨days, since, h⟩ := ok_of_bind h
  obtain ⟨breached, budget, h⟩ := ok_of_bind h
  cases breached with
  | true => exact ⟨daysSince_ok since, compared_ok budget⟩
  | false =>
    obtain ⟨burnt, _, h⟩ := ok_of_bind h
    cases burnt with
    | true =>
      cases h
      cases pauses
    | false =>
      obtain ⟨late, _, h⟩ := ok_of_bind h
      cases late with
      | true =>
        cases h
        cases pauses
      | false =>
        obtain ⟨short, _, h⟩ := ok_of_bind h
        cases short <;> cases h <;> cases pauses

theorem verdict_of_breached {e : ChildEntry} {now : Datetime} (h : e.BudgetBreached now) :
    e.verdict now = .ok ⟨.pause, "monthly_budget_breach"⟩ := by
  obtain ⟨days, since⟩ := daysSince_of_aware h.1
  simp only [ChildEntry.verdict, since, h.2]
  rfl

section Step
variable {e : ChildEntry}

theorem spending_status (amountUsd : Decimal) :
    (e.spending amountUsd).run.status = e.run.status := by
  unfold ChildEntry.spending
  split <;> rfl

theorem earning_status (amountUsd : Decimal) :
    (e.earning amountUsd).run.status = e.run.status := by
  unfold ChildEntry.earning
  split <;> rfl

variable (killed : e.run.status = .killed)
include killed

theorem killed_pausedIfLive : e.pausedIfLive.run.status = .killed := by
  rw [ChildEntry.pausedIfLive, if_neg]
  · exact killed
  · rw [killed]
    decide

theorem killed_killedIfKillable : e.killedIfKillable.run.status = .killed := by
  rw [ChildEntry.killedIfKillable, if_neg]
  · exact killed
  · rw [killed]
    decide

theorem killed_judged_iff (now : Datetime) (reason : String) :
    (e.judged now reason).run.status = .killed ↔ ¬ e.BudgetBreached now := by
  rcases decided : e.verdict now with error | ⟨action, why⟩
  · have kept : e.judged now reason = e := by rw [ChildEntry.judged, decided]
    rw [kept]
    refine ⟨fun _ breached => ?_, fun _ => killed⟩
    rw [verdict_of_breached breached] at decided
    cases decided
  · rw [ChildEntry.judged, decided]
    cases action with
    | pause =>
      refine ⟨fun paused => ?_, fun fine => absurd (breached_of_verdict decided rfl) fine⟩
      cases paused
    | keep =>
      refine ⟨fun _ breached => ?_, fun _ => killed⟩
      rw [verdict_of_breached breached] at decided
      cases decided
    | kill =>
      refine ⟨fun _ breached => ?_, fun _ => rfl⟩
      rw [verdict_of_breached breached] at decided
      cases decided

theorem effect_killed_iff (op : Operation) (j : Uuid) :
    (effect op j e).run.status = .killed ↔ ¬ Pauses op j e := by
  have kept : ∀ {e' : ChildEntry}, e'.run.status = .killed →
      (e'.run.status = .killed ↔ ¬ False) := fun same => ⟨fun _ => id, fun _ => same⟩
  have either : ∀ {childId : Uuid} {e' : ChildEntry}, e'.run.status = .killed →
      ((if j = childId then e' else e).run.status = .killed ↔ ¬ False) := by
    intro childId e' same
    apply kept
    split
    · exact same
    · exact killed
  cases op with
  | register run kill => exact kept killed
  | heartbeat childId now clock => exact either killed
  | recordSpend childId amountUsd => exact either ((spending_status amountUsd).trans killed)
  | recordRevenue childId amountUsd => exact either ((earning_status amountUsd).trans killed)
  | kill childId reason => exact either rfl
  | pauseAll => exact kept (killed_pausedIfLive killed)
  | killAll tasks elapsed deadlineSeconds => exact kept (killed_killedIfKillable killed)
  | pause childId reason =>
    simp only [effect, Pauses]
    by_cases here : j = childId
    · rw [if_pos here]
      constructor
      · intro paused
        cases paused
      · exact absurd here
    · rw [if_neg here]
      exact ⟨fun _ => here, fun _ => killed⟩
  | evaluate childId now clock reason =>
    simp only [effect, Pauses]
    by_cases here : j = childId
    · rw [if_pos here, killed_judged_iff killed]
      simp [here]
    · rw [if_neg here]
      exact ⟨fun _ both => here both.1, fun _ => killed⟩

end Step

/-- A step keeps every killed child killed exactly if it pauses none of them. -/
theorem step_killed_iff (s : Children) (op : Operation) :
    (∀ j, Killed s j → Killed (step s op) j) ↔ SparesKilled s op := by
  have after_step : ∀ {j e}, s.get j = some e → (step s op).get j = some (effect op j e) := by
    intro j e found
    rw [get_step, found]
    rfl
  constructor
  · intro keeps j e found killed
    obtain ⟨e', found', killed'⟩ := keeps j ⟨e, found, killed⟩
    rw [after_step found] at found'
    cases found'
    exact (effect_killed_iff killed op j).mp killed'
  · rintro spares j ⟨e, found, killed⟩
    exact ⟨effect op j e, after_step found,
      (effect_killed_iff killed op j).mpr (spares j e found killed)⟩

/-- A killed child stays killed through a whole run exactly if no call of the run
    pauses a child that is killed at that time: no `pause`, and no `evaluate` that
    finds its budget breached. -/
theorem killed_lasts_iff (s : Children) (ops : List Operation) :
    Lasting step Killed s ops ↔ Meets step SparesKilled s ops :=
  lasting_iff_meets step step_killed_iff s ops

def budgetRun (spentMtdUsd : Decimal) : ChildRun where
  id := ⟨0xc1⟩
  verticalId := ⟨0x1⟩
  preregistrationId := ⟨0x2⟩
  spawnedAt := .utc 0
  status := .live
  monthlyBudgetUsd := .ofNat 100
  spentMtdUsd := spentMtdUsd
  lastHeartbeat := .utc 0
  budget_positive := by decide
  budget_fits := by decide

def usualCriteria : KillCriteria where
  maxDaysToFirstDollar := 14
  minRevenueByDay30Usd := .ofNat 50
  maxBurnBeforeFirstDollarUsd := .ofNat 30
  autoKillOnBreach := true
  maxDays_fits := by decide
  minRevenue_fits := by decide
  maxBurn_positive := by decide
  autoKill_set := rfl

theorem not_killed_of_paused {s : Children} {childId : Uuid}
    (paused : (s.get childId).map (fun e => e.run.status) = some .paused) :
    ¬ Killed s childId := by
  rintro ⟨e, found, killed⟩
  rw [found, Option.map_some, killed] at paused
  cases paused

/-- A killed child that an operator pauses, and one that has spent its budget and is
    evaluated once more, are both paused. -/
theorem killed_child_paused :
    ¬ Lasting step Killed Dict.empty
      [.register (budgetRun (.ofNat 0)) usualCriteria, .kill ⟨0xc1⟩ "operator",
        .pause ⟨0xc1⟩ "operator"] ∧
    ¬ Lasting step Killed Dict.empty
      [.register (budgetRun (.ofNat 100)) usualCriteria, .kill ⟨0xc1⟩ "operator",
        .evaluate ⟨0xc1⟩ none 0 "monthly_budget_breach"] := by
  constructor
  · intro lasting
    have killed := lasting [_, _] [_] ⟨[], rfl⟩ ⟨0xc1⟩ ⟨_, rfl, rfl⟩
    exact not_killed_of_paused rfl killed
  · intro lasting
    have killed := lasting [_, _] [_] ⟨[], rfl⟩ ⟨0xc1⟩ ⟨_, rfl, rfl⟩
    exact not_killed_of_paused rfl killed

end ChildSupervisor
