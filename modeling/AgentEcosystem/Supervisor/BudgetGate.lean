import AgentEcosystem.Supervisor.AutoKill

/-!
The gate a child asks before it spends, and the verdict on what it has spent. The
gate lets a child spend up to its budget, the verdict pauses it once it is there.
-/
namespace ChildSupervisor
open AgentSchemas DecimalArithmetic OrderedDict Raising Runs

/-- `ChildAgent.check_budget` -/
def ChildRun.checkBudget (run : ChildRun) (projectedCostUsd : Decimal) : Except Signal Bool := do
  (← run.spentMtdUsd.add defaultContext projectedCostUsd).le (.finite run.monthlyBudgetUsd)

def Approved (childId : Uuid) (s : Children) (op : Operation) : Prop :=
  ∀ e amountUsd, s.get childId = some e → op = .recordSpend childId amountUsd →
    e.run.checkBudget amountUsd = .ok true

/-- The amount is recorded and takes the child to the last cent of its budget. -/
structure ChildEntry.ExhaustedBy (e : ChildEntry) (amountUsd : Decimal) : Prop where
  recorded : ∃ cumulative, e.cumulativeSpendUsd.add defaultContext amountUsd = .ok cumulative
  reached : ∃ spent, e.run.spentMtdUsd.add defaultContext amountUsd = .ok spent ∧
    spent.eq (.finite e.run.monthlyBudgetUsd) = .ok true

def LeavesRest (childId : Uuid) (s : Children) (op : Operation) : Prop :=
  ∀ e amountUsd, s.get childId = some e → op = .recordSpend childId amountUsd →
    ¬ e.ExhaustedBy amountUsd

def Unbreached (childId : Uuid) (s : Children) : Prop :=
  ∀ now clock, (outcome (evaluate childId now clock) s).1 ≠
    .ok ⟨.pause, "monthly_budget_breach"⟩

def ChildEntry.AtBudget (e : ChildEntry) : Prop :=
  Decimal.le (.finite e.run.monthlyBudgetUsd) e.run.spentMtdUsd = .ok true

theorem unbreached_iff {s : Children} {childId : Uuid} {e : ChildEntry}
    (found : s.get childId = some e) : Unbreached childId s ↔ ¬ e.AtBudget := by
  constructor
  · intro never reached
    apply never (some e.run.spawnedAt) 0
    rw [evaluate_found _ _ found]
    exact verdict_of_breached ⟨rfl, reached⟩
  · intro below now clock breached
    rw [evaluate_found now clock found] at breached
    exact below (breached_of_verdict breached rfl).2

theorem not_atBudget_of_lt {e : ChildEntry}
    (under : e.run.spentMtdUsd.lt (.finite e.run.monthlyBudgetUsd) = .ok true) :
    ¬ e.AtBudget := by
  intro reached
  rw [ChildEntry.AtBudget, Decimal.le, under] at reached
  cases reached

theorem le_iff_eq {x y : Decimal} (le : x.le y = .ok true) :
    y.le x = .ok true ↔ x.eq y = .ok true := by
  cases x with
  | nan s n p => cases y <;> cases le
  | infinity s =>
    cases y with
    | nan => cases le
    | infinity t =>
      revert le
      cases s <;> cases t <;> decide
    | finite y =>
      cases s with
      | false => cases le
      | true => exact ⟨nofun, nofun⟩
  | finite x =>
    cases y with
    | nan => cases le
    | infinity t =>
      cases t with
      | false => exact ⟨nofun, nofun⟩
      | true => cases le
    | finite y =>
      have hx := Decimal.hasValue_finite x
      have hy := Decimal.hasValue_finite y
      rw [Decimal.le_hasValue hx hy] at le
      have below := of_decide_eq_true (Except.ok.inj le)
      rw [Decimal.le_hasValue hy hx, Decimal.eq_hasValue hx hy, Except.ok.injEq, Except.ok.injEq,
        decide_eq_true_iff, decide_eq_true_iff]
      constructor
      · intro above
        exact le_antisymm below above
      · intro same
        exact same.ge

/- An approved amount leaves the month's spending at or below the budget. -/
theorem spending_atBudget_iff {e : ChildEntry} {amountUsd : Decimal} (below : ¬ e.AtBudget)
    (approved : e.run.checkBudget amountUsd = .ok true) :
    (e.spending amountUsd).AtBudget ↔ e.ExhaustedBy amountUsd := by
  obtain ⟨spent, added, within⟩ := ok_of_bind approved
  have second : sum e.run.spentMtdUsd amountUsd = .ok spent := by
    rw [sum, added]
    rfl
  rcases first : e.cumulativeSpendUsd.add defaultContext amountUsd with signal | cumulative
  · have kept : e.spending amountUsd = e := by
      simp only [ChildEntry.spending, sum, first]
      rfl
    rw [kept]
    constructor
    · intro reached
      exact absurd reached below
    · rintro ⟨⟨cumulative, recorded⟩, _⟩
      rw [first] at recorded
      cases recorded
  · have moved : (e.spending amountUsd).AtBudget ↔
        Decimal.le (.finite e.run.monthlyBudgetUsd) spent = .ok true := by
      have sums : sum e.cumulativeSpendUsd amountUsd = .ok cumulative := by
        rw [sum, first]
        rfl
      simp only [ChildEntry.AtBudget, ChildEntry.spending, sums, second]
    rw [moved, le_iff_eq within]
    constructor
    · intro same
      exact ⟨⟨cumulative, first⟩, spent, added, same⟩
    · rintro ⟨_, spent', added', same⟩
      rw [added] at added'
      cases added'
      exact same

theorem effect_atBudget_iff {e : ChildEntry} {op : Operation} {j : Uuid}
    (other : ∀ amountUsd, op ≠ .recordSpend j amountUsd) :
    (effect op j e).AtBudget ↔ e.AtBudget := by
  apply effect_keeps (P := fun e' => e'.AtBudget ↔ e.AtBudget) Iff.rfl
  · intro at_
    exact Iff.rfl
  · intro amountUsd spends
    exact absurd spends (other amountUsd)
  · intro amountUsd
    unfold ChildEntry.earning
    split <;> exact Iff.rfl
  · intro status reason
    exact Iff.rfl

def BelowBudget (childId : Uuid) (s : Children) : Prop :=
  ∃ e, s.get childId = some e ∧ ¬ e.AtBudget

theorem belowBudget_iff {s : Children} {childId : Uuid} {e : ChildEntry}
    (found : s.get childId = some e) : BelowBudget childId s ↔ Unbreached childId s := by
  rw [unbreached_iff found]
  constructor
  · rintro ⟨e', found', below⟩
    rw [found] at found'
    cases found'
    exact below
  · intro below
    exact ⟨e, found, below⟩

theorem step_belowBudget_iff {childId : Uuid} (s : Children) (op : Operation)
    (approved : Approved childId s op) (before : BelowBudget childId s) :
    BelowBudget childId (step s op) ↔ LeavesRest childId s op := by
  obtain ⟨e, found, below⟩ := before
  have next : (step s op).get childId = some (effect op childId e) := by
    rw [get_step, found]
    rfl
  have moved : BelowBudget childId (step s op) ↔ ¬ (effect op childId e).AtBudget := by
    rw [belowBudget_iff next, unbreached_iff next]
  rw [moved]
  by_cases spends : ∃ amountUsd, op = .recordSpend childId amountUsd
  · obtain ⟨amountUsd, rfl⟩ := spends
    have spent : effect (.recordSpend childId amountUsd) childId e = e.spending amountUsd :=
      if_pos rfl
    rw [spent, spending_atBudget_iff below (approved e amountUsd found rfl)]
    constructor
    · intro rest e' amountUsd' found' same
      rw [found] at found'
      cases found'
      cases same
      exact rest
    · intro rest
      exact rest e amountUsd found rfl
  · have other : ∀ amountUsd, op ≠ .recordSpend childId amountUsd :=
      fun amountUsd same => spends ⟨amountUsd, same⟩
    rw [effect_atBudget_iff other]
    constructor
    · intro _ _ amountUsd _ same
      exact absurd same (other amountUsd)
    · intro _
      exact below

/-- In a run whose recorded amounts were all approved, the child is never paused for its
    budget exactly if no amount takes its spending to the budget itself. -/
theorem gate_agrees_iff {s : Children} {childId : Uuid} {e : ChildEntry}
    (found : s.get childId = some e)
    (under : e.run.spentMtdUsd.lt (.finite e.run.monthlyBudgetUsd) = .ok true)
    (ops : List Operation) (approved : Meets step (Approved childId) s ops) :
    Throughout step (Unbreached childId) s ops ↔ Meets step (LeavesRest childId) s ops := by
  have init : BelowBudget childId s := ⟨e, found, not_atBudget_of_lt under⟩
  rw [← throughout_iff_meets_under step (BelowBudget childId) step_belowBudget_iff init approved]
  constructor
  · intro never before isPrefix
    exact (belowBudget_iff (get_run found before)).mpr (never before isPrefix)
  · intro below before isPrefix
    exact (belowBudget_iff (get_run found before)).mp (below before isPrefix)

def newChild : Children := run step Dict.empty [.register (budgetRun (.ofNat 0)) usualCriteria]

theorem gate_agrees_below : Throughout step (Unbreached ⟨0xc1⟩) newChild
    [.recordSpend ⟨0xc1⟩ (.ofNat 60), .recordSpend ⟨0xc1⟩ (.ofNat 39)] := by
  have approved : Meets step (Approved ⟨0xc1⟩) newChild
      [.recordSpend ⟨0xc1⟩ (.ofNat 60), .recordSpend ⟨0xc1⟩ (.ofNat 39)] := by
    refine ⟨?_, ?_, trivial⟩
    · rintro e amountUsd ⟨⟩ ⟨⟩
      rfl
    · rintro e amountUsd ⟨⟩ ⟨⟩
      rfl
  refine (gate_agrees_iff rfl rfl _ approved).mpr ⟨?_, ?_, trivial⟩
  · rintro e amountUsd ⟨⟩ ⟨⟩ ⟨_, spent, ⟨⟩, reached⟩
    cases reached
  · rintro e amountUsd ⟨⟩ ⟨⟩ ⟨_, spent, ⟨⟩, reached⟩
    cases reached

/-- The gate lets the child spend all of its budget at once, and the verdict pauses it. -/
theorem whole_budget_breaches :
    (∃ e, newChild.get ⟨0xc1⟩ = some e ∧
      e.run.spentMtdUsd.lt (.finite e.run.monthlyBudgetUsd) = .ok true) ∧
    (Decimal.ofNat 0).lt (.ofNat 100) = .ok true ∧
    Meets step (Approved ⟨0xc1⟩) newChild [.recordSpend ⟨0xc1⟩ (.ofNat 100)] ∧
    ¬ Throughout step (Unbreached ⟨0xc1⟩) newChild [.recordSpend ⟨0xc1⟩ (.ofNat 100)] := by
  refine ⟨⟨_, rfl, rfl⟩, rfl, ⟨?_, trivial⟩, ?_⟩
  · rintro e amountUsd ⟨⟩ ⟨⟩
    rfl
  · intro never
    exact never _ List.prefix_rfl (some (.utc 0)) 0 rfl

end ChildSupervisor
