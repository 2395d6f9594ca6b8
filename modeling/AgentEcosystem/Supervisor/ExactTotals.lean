import AgentEcosystem.Supervisor.Interleavings
import AgentEcosystem.Supervisor.StableDecisions

/-!
The books of a child. Amounts of money with up to six decimals are added without
rounding for more calls than a supervisor will ever see, so what a run holds is
exactly what was recorded for the child, whatever happens in between.
-/
namespace ChildSupervisor
open AgentSchemas DecimalArithmetic NearestRounding OrderedDict Raising Runs Decimal

/-- An amount below a hundred million with at most six decimals, the precision of a cost. -/
def IsAmount (d : Decimal) : Prop :=
  ∃ x, d = .finite x ∧ x.toRat ∈ Grid ((10 : ℚ) ^ (-6 : ℤ)) ∧ |x.toRat| ≤ 10 ^ 8

def worth : Decimal → ℚ
  | .finite x => x.toRat
  | _ => 0

def spendOf (j : Uuid) : Operation → Option Decimal
  | .recordSpend childId amountUsd => if j = childId then some amountUsd else none
  | _ => none

def revenueOf (j : Uuid) : Operation → Option Decimal
  | .recordRevenue childId amountUsd => if j = childId then some amountUsd else none
  | _ => none

def totalWorth (amounts : List Decimal) : ℚ := (amounts.map worth).sum

section Amounts
variable {d : Decimal}

theorem IsAmount.hasValue (amount : IsAmount d) : d.HasValue (worth d) := by
  obtain ⟨x, rfl, _⟩ := amount
  exact hasValue_finite x

theorem IsAmount.grid (amount : IsAmount d) : worth d ∈ Grid ((10 : ℚ) ^ (-6 : ℤ)) := by
  obtain ⟨x, rfl, onGrid, _⟩ := amount
  exact onGrid

theorem IsAmount.small (amount : IsAmount d) : |worth d| ≤ 10 ^ 8 := by
  obtain ⟨x, rfl, _, small⟩ := amount
  exact small

theorem totalWorth_append (ds es : List Decimal) :
    totalWorth (ds ++ es) = totalWorth ds + totalWorth es := by
  rw [totalWorth, List.map_append, List.sum_append]
  rfl

theorem totalWorth_grid {ds : List Decimal} (amounts : ∀ d ∈ ds, IsAmount d) :
    totalWorth ds ∈ Grid ((10 : ℚ) ^ (-6 : ℤ)) := by
  induction ds with
  | nil => exact grid_zero _
  | cons d ds ih =>
    obtain ⟨first, rest⟩ := List.forall_mem_cons.mp amounts
    exact grid_add first.grid (ih rest)

theorem totalWorth_abs_le {ds : List Decimal} (amounts : ∀ d ∈ ds, IsAmount d) :
    |totalWorth ds| ≤ ds.length * 10 ^ 8 := by
  induction ds with
  | nil => simp [totalWorth]
  | cons d ds ih =>
    obtain ⟨first, rest⟩ := List.forall_mem_cons.mp amounts
    have small := first.small
    have later := ih rest
    have triangle := abs_add_le (worth d) (totalWorth ds)
    have split : totalWorth (d :: ds) = worth d + totalWorth ds := rfl
    rw [split, List.length_cons]
    push_cast
    linarith

/- A sum of amounts that still fits the context is not rounded. -/
theorem sum_exact {x y : Decimal} {p q : ℚ} (hx : x.HasValue p) (hy : y.HasValue q)
    (onGrid : p + q ∈ Grid ((10 : ℚ) ^ (-6 : ℤ))) (small : |p + q| < 10 ^ 22) :
    ∃ v, sum x y = .ok v ∧ v.HasValue (p + q) := by
  have far : (10 : ℚ) ^ (22 : ℤ) ≤ 10 ^ defaultContext.emax := ten_zpow_le (by decide)
  norm_num at far
  have fits : |p + q| < (10 : ℚ) ^ defaultContext.emax := by linarith
  obtain ⟨v, added, value⟩ := add_ok hx hy fits
  rw [defaultContext.round_of_grid (by decide) onGrid (by norm_num [defaultContext]; linarith)]
    at value
  exact ⟨v, by rw [sum, added]; rfl, value⟩

end Amounts

theorem sameAmounts_effect {op : Operation} {j : Uuid} (noSpend : spendOf j op = none)
    (noRevenue : revenueOf j op = none) (e : ChildEntry) : e.SameAmounts (effect op j e) := by
  have same : e.SameAmounts e := ⟨rfl, rfl, rfl⟩
  have either : ∀ {childId : Uuid} {e' : ChildEntry}, e.SameAmounts e' →
      e.SameAmounts (if j = childId then e' else e) := by
    intro childId e' kept
    split
    · exact kept
    · exact same
  cases op with
  | register run kill => exact same
  | heartbeat childId now clock => exact either ⟨rfl, rfl, rfl⟩
  | recordSpend childId amountUsd =>
    have other : j ≠ childId := fun here => by simp [spendOf, here] at noSpend
    rw [effect, if_neg other]
    exact same
  | recordRevenue childId amountUsd =>
    have other : j ≠ childId := fun here => by simp [revenueOf, here] at noRevenue
    rw [effect, if_neg other]
    exact same
  | pause childId reason => exact either ⟨rfl, rfl, rfl⟩
  | kill childId reason => exact either ⟨rfl, rfl, rfl⟩
  | pauseAll =>
    rw [effect, ChildEntry.pausedIfLive]
    split
    · exact ⟨rfl, rfl, rfl⟩
    · exact same
  | killAll tasks elapsed deadlineSeconds =>
    rw [effect, ChildEntry.killedIfKillable]
    split
    · exact ⟨rfl, rfl, rfl⟩
    · exact same
  | evaluate childId now clock reason =>
    apply either
    unfold ChildEntry.judged
    split
    · next decision _ =>
      unfold ChildEntry.decided
      cases decision.action with
      | keep => exact same
      | pause => exact ⟨rfl, rfl, rfl⟩
      | kill => exact ⟨rfl, rfl, rfl⟩
    · exact same

structure Books (e : ChildEntry) (burnt spent earned : ℚ) : Prop where
  cumulativeSpend : e.cumulativeSpendUsd.HasValue burnt
  spentMtd : e.run.spentMtdUsd.HasValue spent
  revenueMtd : e.run.revenueMtdUsd.HasValue earned

section Calls
variable {e : ChildEntry} {op : Operation} {j : Uuid} {d : Decimal} {burnt spent earned : ℚ}
  (books : Books e burnt spent earned)
include books

theorem books_spend (spends : spendOf j op = some d) (amount : IsAmount d)
    (burntGrid : burnt + worth d ∈ Grid ((10 : ℚ) ^ (-6 : ℤ)))
    (spentGrid : spent + worth d ∈ Grid ((10 : ℚ) ^ (-6 : ℤ)))
    (burntSmall : |burnt + worth d| < 10 ^ 22) (spentSmall : |spent + worth d| < 10 ^ 22) :
    Books (effect op j e) (burnt + worth d) (spent + worth d) earned := by
  cases op with
  | recordSpend childId amountUsd =>
    by_cases here : j = childId
    · simp only [spendOf, if_pos here] at spends
      cases spends
      obtain ⟨v, first, burntValue⟩ :=
        sum_exact books.cumulativeSpend amount.hasValue burntGrid burntSmall
      obtain ⟨w, second, spentValue⟩ :=
        sum_exact books.spentMtd amount.hasValue spentGrid spentSmall
      simp only [effect, if_pos here, ChildEntry.spending, first, second]
      exact ⟨burntValue, spentValue, books.revenueMtd⟩
    · simp only [spendOf, if_neg here] at spends
      cases spends
  | _ => cases spends

theorem books_earn (earns : revenueOf j op = some d) (amount : IsAmount d)
    (onGrid : earned + worth d ∈ Grid ((10 : ℚ) ^ (-6 : ℤ)))
    (small : |earned + worth d| < 10 ^ 22) :
    Books (effect op j e) burnt spent (earned + worth d) := by
  cases op with
  | recordRevenue childId amountUsd =>
    by_cases here : j = childId
    · simp only [revenueOf, if_pos here] at earns
      cases earns
      obtain ⟨v, added, value⟩ := sum_exact books.revenueMtd amount.hasValue onGrid small
      simp only [effect, if_pos here, ChildEntry.earning, added]
      exact ⟨books.cumulativeSpend, books.spentMtd, value⟩
    · simp only [revenueOf, if_neg here] at earns
      cases earns
  | _ => cases earns

theorem books_other (noSpend : spendOf j op = none) (noRevenue : revenueOf j op = none) :
    Books (effect op j e) burnt spent earned := by
  have same := sameAmounts_effect noSpend noRevenue e
  constructor
  · rw [same.cumulativeSpend]
    exact books.cumulativeSpend
  · rw [same.spentMtd]
    exact books.spentMtd
  · rw [same.revenueMtd]
    exact books.revenueMtd

end Calls

/- A call cannot record both. -/
theorem revenueOf_of_spend {j : Uuid} {op : Operation} {d : Decimal}
    (spends : spendOf j op = some d) : revenueOf j op = none := by
  cases op with
  | recordSpend childId amountUsd => rfl
  | _ => cases spends

def spends (j : Uuid) (ops : List Operation) : List Decimal := ops.filterMap (spendOf j)
def revenues (j : Uuid) (ops : List Operation) : List Decimal := ops.filterMap (revenueOf j)

section Totals
variable {j : Uuid}

theorem filterMap_snoc (f : Operation → Option Decimal) (ops : List Operation) (op : Operation) :
    (ops ++ [op]).filterMap f = ops.filterMap f ++ (f op).toList := by
  rw [List.filterMap_append]
  rcases found : f op with _ | d
  · rw [List.filterMap_cons_none found]
    rfl
  · rw [List.filterMap_cons_some found]
    rfl

/-- A balance that starts as an amount, and the amounts recorded since. -/
theorem running_total {start : ℚ} (startGrid : start ∈ Grid ((10 : ℚ) ^ (-6 : ℤ)))
    (startSmall : |start| ≤ 10 ^ 8) {ds : List Decimal} (amounts : ∀ d ∈ ds, IsAmount d)
    (few : ds.length ≤ 10 ^ 12) :
    start + totalWorth ds ∈ Grid ((10 : ℚ) ^ (-6 : ℤ)) ∧ |start + totalWorth ds| < 10 ^ 22 := by
  have count : (ds.length : ℚ) ≤ 10 ^ 12 := by exact_mod_cast few
  have bound := totalWorth_abs_le amounts
  have triangle := abs_add_le start (totalWorth ds)
  exact ⟨grid_add startGrid (totalWorth_grid amounts), by linarith⟩

theorem books_run {e : ChildEntry} {burnt spent earned : ℚ} (books : Books e burnt spent earned)
    (grids : ∀ q ∈ [burnt, spent, earned], q ∈ Grid ((10 : ℚ) ^ (-6 : ℤ)) ∧ |q| ≤ 10 ^ 8)
    {ops : List Operation} (few : ops.length ≤ 10 ^ 12) (spent' : ∀ d ∈ spends j ops, IsAmount d)
    (earned' : ∀ d ∈ revenues j ops, IsAmount d) :
    Books (run (fun e op => effect op j e) e ops) (burnt + totalWorth (spends j ops))
      (spent + totalWorth (spends j ops)) (earned + totalWorth (revenues j ops)) := by
  induction ops using List.reverseRecOn with
  | nil =>
    simp only [spends, revenues, List.filterMap_nil, totalWorth, List.map_nil, List.sum_nil,
      add_zero]
    exact books
  | append_singleton ops op ih =>
    have fewSpends : (spends j (ops ++ [op])).length ≤ 10 ^ 12 :=
      (List.length_filterMap_le _ _).trans few
    have fewRevenues : (revenues j (ops ++ [op])).length ≤ 10 ^ 12 :=
      (List.length_filterMap_le _ _).trans few
    obtain ⟨burntGrid, burntSmall⟩ := grids burnt (by simp)
    obtain ⟨spentGrid, spentSmall⟩ := grids spent (by simp)
    obtain ⟨earnedGrid, earnedSmall⟩ := grids earned (by simp)
    have burntFits := running_total burntGrid burntSmall spent' fewSpends
    have spentFits := running_total spentGrid spentSmall spent' fewSpends
    have earnedFits := running_total earnedGrid earnedSmall earned' fewRevenues
    have splitSpends : spends j (ops ++ [op]) = spends j ops ++ (spendOf j op).toList :=
      filterMap_snoc _ ops op
    have splitRevenues : revenues j (ops ++ [op]) = revenues j ops ++ (revenueOf j op).toList :=
      filterMap_snoc _ ops op
    rw [splitSpends] at spent' burntFits spentFits ⊢
    rw [splitRevenues] at earned' earnedFits ⊢
    rw [List.length_append] at few
    have before := ih (by omega) (List.forall_mem_append.mp spent').1
      (List.forall_mem_append.mp earned').1
    rw [run_append]
    rw [totalWorth_append, ← add_assoc] at burntFits spentFits earnedFits ⊢
    rw [totalWorth_append, ← add_assoc, ← add_assoc]
    rcases isSpend : spendOf j op with _ | d
    · rcases isRevenue : revenueOf j op with _ | d
      · simpa [totalWorth] using books_other before isSpend isRevenue
      · rw [isRevenue] at earned' earnedFits
        have amount : IsAmount d := earned' d (by simp)
        have after := books_earn before isRevenue amount (by simpa [totalWorth] using earnedFits.1)
          (by simpa [totalWorth] using earnedFits.2)
        simpa [totalWorth] using after
    · rw [isSpend] at spent' burntFits spentFits
      rw [revenueOf_of_spend isSpend]
      have amount : IsAmount d := spent' d (by simp)
      have after := books_spend before isSpend amount (by simpa [totalWorth] using burntFits.1)
        (by simpa [totalWorth] using spentFits.1) (by simpa [totalWorth] using burntFits.2)
        (by simpa [totalWorth] using spentFits.2)
      simpa [totalWorth] using after

end Totals

/-- The rules over exact totals, for a child of this many days. -/
def judgement (run : ChildRun) (kill : KillCriteria) (burnt spent earned : ℚ) (days : ℤ) :
    SupervisorDecision :=
  if run.monthlyBudgetUsd.toRat ≤ spent then ⟨.pause, "monthly_budget_breach"⟩
  else if kill.maxBurnBeforeFirstDollarUsd.toRat ≤ burnt ∧ earned = 0 then
    ⟨.kill, "burn_without_revenue"⟩
  else if kill.maxDaysToFirstDollar ≤ max 0 days ∧ earned = 0 then
    ⟨.kill, "no_revenue_by_deadline"⟩
  else if 30 ≤ max 0 days ∧ earned < kill.minRevenueByDay30Usd.toRat then
    ⟨.kill, "below_day30_target"⟩
  else ⟨.keep, "ok"⟩

theorem verdict_of_books {e : ChildEntry} {burnt spent earned : ℚ}
    (books : Books e burnt spent earned) {now : Datetime} {days : ℤ}
    (since : now.daysSince e.run.spawnedAt = .ok days) :
    e.verdict now = .ok (judgement e.run e.kill burnt spent earned days) := by
  have breach := le_hasValue (hasValue_finite e.run.monthlyBudgetUsd) books.spentMtd
  have burn :=
    le_hasValue (hasValue_finite e.kill.maxBurnBeforeFirstDollarUsd) books.cumulativeSpend
  have empty := eq_hasValue books.revenueMtd hasValue_zero
  have short := lt_hasValue books.revenueMtd (hasValue_finite e.kill.minRevenueByDay30Usd)
  by_cases breached : e.run.monthlyBudgetUsd.toRat ≤ spent
  · rw [judgement, if_pos breached]
    rw [decide_eq_true breached] at breach
    simp only [ChildEntry.verdict, since, breach, bind, Except.bind]
    rfl
  · rw [decide_eq_false breached] at breach
    rw [ChildEntry.verdict_within_budget since breach burn empty, judgement, if_neg breached, short]
    by_cases burntOut : e.kill.maxBurnBeforeFirstDollarUsd.toRat ≤ burnt ∧ earned = 0
    · rw [if_pos burntOut, if_pos (by simpa using burntOut)]
    rw [if_neg burntOut, if_neg (by simpa using burntOut)]
    by_cases late : e.kill.maxDaysToFirstDollar ≤ max 0 days ∧ earned = 0
    · rw [if_pos late, if_pos (by rwa [Bool.and_eq_true, decide_eq_true_iff, decide_eq_true_iff])]
    rw [if_neg late,
      if_neg (by rwa [Bool.and_eq_true, decide_eq_true_iff, decide_eq_true_iff])]
    by_cases old : 30 ≤ max 0 days
    · rw [decide_eq_true old]
      by_cases below : earned < e.kill.minRevenueByDay30Usd.toRat
      · rw [if_pos ⟨old, below⟩, decide_eq_true below]
        rfl
      · rw [if_neg fun both => below both.2, decide_eq_false below]
        rfl
    · rw [if_neg fun both => old both.1, decide_eq_false old]
      rfl

/-- Whatever else is supervised and in which order, a decision about a child is the one
    over the exact totals of what was recorded for it. -/
theorem exact_decisions {s : Children} {run : ChildRun} (new : s.get run.id = none)
    (spentAmount : IsAmount run.spentMtdUsd) (revenueAmount : IsAmount run.revenueMtdUsd)
    (kill : KillCriteria) {ops : List Operation} (few : ops.length ≤ 10 ^ 12)
    (amounts : ∀ d ∈ spends run.id ops ++ revenues run.id ops, IsAmount d) {now : Datetime}
    {elapsed : ℤ} (since : now.sub run.spawnedAt = .ok elapsed) (clock : ℤ) :
    (outcome (evaluate run.id (some now) clock)
      (Runs.run step s (.register run kill :: ops))).1 =
      .ok (judgement run kill (totalWorth (spends run.id ops))
        (worth run.spentMtdUsd + totalWorth (spends run.id ops))
        (worth run.revenueMtdUsd + totalWorth (revenues run.id ops)) (elapsed / microsPerDay)) := by
  set e : ChildEntry := { run := run, kill := kill } with entry
  have registered : (step s (.register run kill)).get run.id = some e := by
    rw [get_step, new]
    exact if_pos rfl
  have books : Books e 0 (worth run.spentMtdUsd) (worth run.revenueMtdUsd) :=
    ⟨hasValue_zero, spentAmount.hasValue, revenueAmount.hasValue⟩
  have grids : ∀ q ∈ [0, worth run.spentMtdUsd, worth run.revenueMtdUsd],
      q ∈ Grid ((10 : ℚ) ^ (-6 : ℤ)) ∧ |q| ≤ 10 ^ 8 := by
    simp only [List.forall_mem_cons]
    exact ⟨⟨grid_zero _, by norm_num⟩, ⟨spentAmount.grid, spentAmount.small⟩,
      ⟨revenueAmount.grid, revenueAmount.small⟩, by simp⟩
  obtain ⟨spentAmounts, revenueAmounts⟩ := List.forall_mem_append.mp amounts
  have after := books_run books grids few spentAmounts revenueAmounts
  rw [zero_add] at after
  have terms := e.sameTerms_run run.id ops
  rw [run_cons, evaluate_found _ _ (get_run registered ops)]
  have counted : now.daysSince run.spawnedAt = .ok (elapsed / microsPerDay) := by
    rw [Datetime.daysSince, since]
    rfl
  rw [← terms.spawnedAt] at counted
  have decided := verdict_of_books after counted
  rw [orClock, Option.getD_some, decided]
  simp only [judgement, terms.monthlyBudget, terms.kill]
  rfl

def lastMicro : List Operation :=
  [.recordSpend ⟨0xc1⟩ (.finite ⟨false, 99999999, -6⟩), .register twin usualCriteria,
    .recordSpend ⟨0xc2⟩ (.ofNat 7), .recordSpend ⟨0xc1⟩ (.finite ⟨false, 1, -6⟩)]

theorem paused_by_last_micro :
    (outcome (evaluate ⟨0xc1⟩ (some (.utc 0)) 0) (run step Dict.empty
      (.register (budgetRun (.ofNat 0)) usualCriteria :: lastMicro))).1 =
      .ok ⟨.pause, "monthly_budget_breach"⟩ := by
  have onGrid : ∀ n : ℕ, n ≤ 10 ^ 8 → IsAmount (.finite ⟨false, n, -6⟩) := by
    intro n le
    have value : (⟨false, n, -6⟩ : FiniteDecimal).toRat = n * (10 : ℚ) ^ (-6 : ℤ) := by
      simp [FiniteDecimal.toRat, FiniteDecimal.signed]
    have bound : (n : ℚ) ≤ 10 ^ 8 := by exact_mod_cast le
    refine ⟨_, rfl, ⟨n, by simp [value]⟩, ?_⟩
    rw [value, abs_of_nonneg (by positivity)]
    norm_num
    linarith
  have zero : IsAmount (.ofNat 0) := by
    have value : (FiniteDecimal.ofNat 0).toRat = 0 := by
      simp [FiniteDecimal.toRat, FiniteDecimal.ofNat, FiniteDecimal.signed]
    exact ⟨.ofNat 0, rfl, by rw [value]; exact grid_zero _, by rw [value]; norm_num⟩
  have spent : spends ⟨0xc1⟩ lastMicro =
      [.finite ⟨false, 99999999, -6⟩, .finite ⟨false, 1, -6⟩] := by decide
  have amounts : ∀ d ∈ spends ⟨0xc1⟩ lastMicro ++ revenues ⟨0xc1⟩ lastMicro, IsAmount d := by
    have earned : revenues ⟨0xc1⟩ lastMicro = [] := by decide
    rw [spent, earned, List.append_nil, List.forall_mem_cons, List.forall_mem_singleton]
    exact ⟨onGrid 99999999 (by norm_num), onGrid 1 (by norm_num)⟩
  have new : (Dict.empty : Children).get (budgetRun (.ofNat 0)).id = none := rfl
  have since : (Datetime.utc 0).sub (budgetRun (.ofNat 0)).spawnedAt = .ok 0 := rfl
  have decided := exact_decisions new zero zero usualCriteria (by decide) amounts since 0
  refine decided.trans ?_
  have total : totalWorth (spends (budgetRun (.ofNat 0)).id lastMicro) = 100 := by
    have here : (budgetRun (.ofNat 0)).id = ⟨0xc1⟩ := rfl
    rw [here, spent]
    norm_num [totalWorth, worth, FiniteDecimal.toRat, FiniteDecimal.signed]
  have budget : (budgetRun (.ofNat 0)).monthlyBudgetUsd.toRat = 100 := by
    norm_num [budgetRun, FiniteDecimal.toRat, FiniteDecimal.ofNat, FiniteDecimal.signed]
  have start : worth (budgetRun (.ofNat 0)).spentMtdUsd = 0 := by
    norm_num [worth, budgetRun, Decimal.ofNat, FiniteDecimal.toRat, FiniteDecimal.ofNat,
      FiniteDecimal.signed]
  rw [judgement, if_pos (by rw [total, budget, start]; norm_num)]

end ChildSupervisor
