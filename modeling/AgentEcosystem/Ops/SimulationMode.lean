import AgentEcosystem.Cashflow.Reconciliation
import AgentEcosystem.Ops.WeeklyDigest
import AgentEcosystem.Supervisor.ExactTotals

/-!
Simulated weeks. A harness moves the clock and adds up what is earned and spent; the mail
that is sent then shows the ledger and these totals, with nothing rounded on the way.
-/
namespace SimulationMode
open AgentSchemas CashflowLedger ChildSupervisor DecimalArithmetic DigestMail NearestRounding
  Raising Runs Decimal

structure SimulationHarness where
  clock : DateTime
  daysElapsed : ℕ := 0
  revenueTotalUsd : Decimal := .ofNat 0
  costTotalUsd : Decimal := .ofNat 0

namespace SimulationHarness

/-- The clock raises at the end of the calendar, before the day is counted. -/
def advanceDay (h : SimulationHarness) : Except DigestError SimulationHarness := do
  let clock ← h.clock.addDays 1
  return { h with clock, daysElapsed := h.daysElapsed + 1 }

def addRevenue (h : SimulationHarness) (amountUsd : Decimal) : Except Signal SimulationHarness := do
  let total ← h.revenueTotalUsd.add defaultContext amountUsd
  return { h with revenueTotalUsd := total }

def addCost (h : SimulationHarness) (amountUsd : Decimal) : Except Signal SimulationHarness := do
  let total ← h.costTotalUsd.add defaultContext amountUsd
  return { h with costTotalUsd := total }

def marginUsd (h : SimulationHarness) : Except Signal Decimal :=
  h.revenueTotalUsd.sub defaultContext h.costTotalUsd

end SimulationHarness

def finiteBalances (b : PotBalances) : Except DigestError Balances := do
  let operating ← finiteField b.operating
  let reserve ← finiteField b.reserve
  let growth ← finiteField b.growth
  return { operating, reserve, growth }

inductive HarnessCall where
  | advanceDay
  | addRevenue (amountUsd : Decimal)
  | addCost (amountUsd : Decimal)

/-- What a call returned, or the harness as it was before a call that raised. -/
def keptOr {ε : Type} (h : SimulationHarness) : Except ε SimulationHarness → SimulationHarness
  | .ok h' => h'
  | .error _ => h

def harnessStep (h : SimulationHarness) : HarnessCall → SimulationHarness
  | .advanceDay => keptOr h h.advanceDay
  | .addRevenue amountUsd => keptOr h (h.addRevenue amountUsd)
  | .addCost amountUsd => keptOr h (h.addCost amountUsd)

def revenueIn : HarnessCall → Option Decimal
  | .addRevenue amountUsd => some amountUsd
  | _ => none

def costIn : HarnessCall → Option Decimal
  | .addCost amountUsd => some amountUsd
  | _ => none

def earned (calls : List HarnessCall) : List Decimal := calls.filterMap revenueIn
def spent (calls : List HarnessCall) : List Decimal := calls.filterMap costIn

def daysIn (start : DateTime) (calls : List HarnessCall) : ℕ :=
  min (calls.countP fun call => call matches .advanceDay) (maxOrdinal - start.day)

/-- What a harness holds after some calls. -/
structure Holds (start : DateTime) (calls : List HarnessCall) (h : SimulationHarness) : Prop where
  days : h.daysElapsed = daysIn start calls
  clock : h.clock.day = start.day + h.daysElapsed
  revenue : h.revenueTotalUsd.HasValue (totalWorth (earned calls))
  cost : h.costTotalUsd.HasValue (totalWorth (spent calls))

structure Bounded (calls : List HarnessCall) : Prop where
  few : calls.length ≤ 10 ^ 12
  earned : ∀ d ∈ earned calls, IsAmount d
  spent : ∀ d ∈ spent calls, IsAmount d

section Steps
variable {start : DateTime} {calls : List HarnessCall} {h : SimulationHarness}

theorem filterMap_append_call (f : HarnessCall → Option Decimal) (call : HarnessCall) :
    (calls ++ [call]).filterMap f = calls.filterMap f ++ (f call).toList := by
  rw [List.filterMap_append]
  cases found : f call with
  | none => rw [List.filterMap_cons_none found]; rfl
  | some d => rw [List.filterMap_cons_some found]; rfl

theorem total_grows {total : Decimal} {ds : List Decimal} {d : Decimal}
    (value : total.HasValue (totalWorth ds)) (amounts : ∀ e ∈ ds ++ [d], IsAmount e)
    (few : (ds ++ [d]).length ≤ 10 ^ 12) :
    ∃ v, total.add defaultContext d = .ok v ∧ v.HasValue (totalWorth (ds ++ [d])) := by
  have last : IsAmount d := amounts d (by simp)
  obtain ⟨onGrid, small⟩ := running_total (grid_zero _) (by norm_num) amounts few
  rw [zero_add, totalWorth_append] at onGrid small
  have single : totalWorth [d] = worth d := by simp [totalWorth]
  rw [single] at onGrid small
  obtain ⟨v, added, exact⟩ := sum_exact value last.hasValue onGrid small
  refine ⟨v, ok_of_mapError added, ?_⟩
  rw [totalWorth_append, single]
  exact exact

theorem Bounded.init {call : HarnessCall} (bounded : Bounded (calls ++ [call])) :
    Bounded calls := by
  obtain ⟨few, amounts, amounts'⟩ := bounded
  rw [List.length_append] at few
  rw [SimulationMode.earned, filterMap_append_call] at amounts
  rw [SimulationMode.spent, filterMap_append_call] at amounts'
  exact ⟨by omega, fun d mem => amounts d (List.mem_append_left _ mem),
    fun d mem => amounts' d (List.mem_append_left _ mem)⟩

theorem length_filterMap_le_calls (f : HarnessCall → Option Decimal)
    (few : calls.length ≤ 10 ^ 12) : (calls.filterMap f).length ≤ 10 ^ 12 :=
  le_trans (List.length_filterMap_le f calls) few

theorem holds_advance (holds : Holds start calls h) :
    Holds start (calls ++ [.advanceDay]) (harnessStep h .advanceDay) := by
  have earnedSame : earned (calls ++ [.advanceDay]) = earned calls := by
    rw [earned, filterMap_append_call]
    exact List.append_nil _
  have spentSame : spent (calls ++ [.advanceDay]) = spent calls := by
    rw [spent, filterMap_append_call]
    exact List.append_nil _
  have counted : daysIn start (calls ++ [.advanceDay]) =
      min (calls.countP (fun call => call matches .advanceDay) + 1) (maxOrdinal - start.day) := by
    rw [daysIn, List.countP_append]
    rfl
  have days := holds.days
  have clock := holds.clock
  have valid := h.clock.valid
  rw [daysIn] at days
  by_cases room : h.clock.day < maxOrdinal
  · have fits : 1 ≤ (h.clock.day + (1 : ℤ)).toNat ∧ (h.clock.day + (1 : ℤ)).toNat ≤ maxOrdinal := by
      omega
    have moved : harnessStep h .advanceDay = { h with
        clock := ⟨(h.clock.day + (1 : ℤ)).toNat, fits⟩, daysElapsed := h.daysElapsed + 1 } := by
      simp only [harnessStep, SimulationHarness.advanceDay, DateTime.addDays, dif_pos fits]
      rfl
    rw [moved]
    refine ⟨?_, ?_, earnedSame ▸ holds.revenue, spentSame ▸ holds.cost⟩
    · rw [counted]
      change h.daysElapsed + 1 = _
      omega
    · change (h.clock.day + (1 : ℤ)).toNat = start.day + (h.daysElapsed + 1)
      omega
  · have full : ¬ (1 ≤ (h.clock.day + (1 : ℤ)).toNat ∧
        (h.clock.day + (1 : ℤ)).toNat ≤ maxOrdinal) := by omega
    have kept : harnessStep h .advanceDay = h := by
      simp only [harnessStep, SimulationHarness.advanceDay, DateTime.addDays, dif_neg full]
      rfl
    rw [kept]
    refine ⟨?_, clock, earnedSame ▸ holds.revenue, spentSame ▸ holds.cost⟩
    rw [counted]
    omega

theorem daysIn_append {call : HarnessCall} (other : (call matches .advanceDay) = false) :
    daysIn start (calls ++ [call]) = daysIn start calls := by
  rw [daysIn, daysIn, List.countP_append, List.countP_singleton, other]
  rfl

theorem holds_step {call : HarnessCall} (bounded : Bounded (calls ++ [call]))
    (holds : Holds start calls h) : Holds start (calls ++ [call]) (harnessStep h call) := by
  cases call with
  | advanceDay => exact holds_advance holds
  | addRevenue amountUsd =>
    have grows : earned (calls ++ [.addRevenue amountUsd]) = earned calls ++ [amountUsd] :=
      filterMap_append_call _ _
    have same : spent (calls ++ [.addRevenue amountUsd]) = spent calls := by
      rw [spent, filterMap_append_call]
      exact List.append_nil _
    obtain ⟨v, added, value⟩ := total_grows holds.revenue (grows ▸ bounded.earned)
      (grows ▸ length_filterMap_le_calls revenueIn bounded.few)
    have moved : harnessStep h (.addRevenue amountUsd) = { h with revenueTotalUsd := v } := by
      simp only [harnessStep, SimulationHarness.addRevenue, added]
      rfl
    rw [moved]
    exact ⟨holds.days.trans (daysIn_append rfl).symm, holds.clock, grows ▸ value,
      same ▸ holds.cost⟩
  | addCost amountUsd =>
    have grows : spent (calls ++ [.addCost amountUsd]) = spent calls ++ [amountUsd] :=
      filterMap_append_call _ _
    have same : earned (calls ++ [.addCost amountUsd]) = earned calls := by
      rw [earned, filterMap_append_call]
      exact List.append_nil _
    obtain ⟨v, added, value⟩ := total_grows holds.cost (grows ▸ bounded.spent)
      (grows ▸ length_filterMap_le_calls costIn bounded.few)
    have moved : harnessStep h (.addCost amountUsd) = { h with costTotalUsd := v } := by
      simp only [harnessStep, SimulationHarness.addCost, added]
      rfl
    rw [moved]
    exact ⟨holds.days.trans (daysIn_append rfl).symm, holds.clock, same ▸ holds.revenue,
      grows ▸ value⟩

theorem holds_run (start : DateTime) {calls : List HarnessCall} (bounded : Bounded calls) :
    Holds start calls (run harnessStep ⟨start, 0, .ofNat 0, .ofNat 0⟩ calls) := by
  induction calls using List.reverseRecOn with
  | nil => exact ⟨(Nat.zero_min _).symm, rfl, hasValue_zero, hasValue_zero⟩
  | append_singleton calls call ih =>
    rw [run_append]
    exact holds_step bounded (ih bounded.init)

end Steps

theorem totals_small {f : HarnessCall → Option Decimal} {calls : List HarnessCall}
    (few : calls.length ≤ 10 ^ 12) (amounts : ∀ d ∈ calls.filterMap f, IsAmount d) :
    |totalWorth (calls.filterMap f)| ≤ 10 ^ 20 := by
  have count : ((calls.filterMap f).length : ℚ) ≤ 10 ^ 12 := by
    exact_mod_cast length_filterMap_le_calls f few
  have bound := totalWorth_abs_le amounts
  linarith

theorem margin_exact {start : DateTime} {calls : List HarnessCall} {h : SimulationHarness}
    (bounded : Bounded calls) (holds : Holds start calls h) :
    ∃ margin, h.marginUsd = .ok margin ∧
      margin.HasValue (totalWorth (earned calls) - totalWorth (spent calls)) := by
  have far : (10 : ℚ) ^ (22 : ℤ) ≤ 10 ^ defaultContext.emax := ten_zpow_le (by decide)
  norm_num at far
  have onGrid := grid_sub (totalWorth_grid bounded.earned) (totalWorth_grid bounded.spent)
  have revenue : |totalWorth (earned calls)| ≤ 10 ^ 20 := totals_small bounded.few bounded.earned
  have cost : |totalWorth (spent calls)| ≤ 10 ^ 20 := totals_small bounded.few bounded.spent
  have triangle := abs_sub (totalWorth (earned calls)) (totalWorth (spent calls))
  have fits : |totalWorth (earned calls) - totalWorth (spent calls)| <
      (10 : ℚ) ^ defaultContext.emax := by linarith
  obtain ⟨margin, subtracted, value⟩ := sub_ok holds.revenue holds.cost fits
  rw [defaultContext.round_of_grid (by decide) onGrid (by norm_num [defaultContext]; linarith)]
    at value
  exact ⟨margin, subtracted, value⟩

theorem finiteBalances_exact {b : PotBalances} {rows : Ledger} (short : Short rows)
    (report : Reports b rows) : ∃ balances, finiteBalances b = .ok balances ∧
      balances.operating.toRat = entered rows .operating ∧
      balances.reserve.toRat = entered rows .reserve ∧
      balances.growth.toRat = entered rows .growth := by
  obtain ⟨operating, first, firstValue⟩ := report .operating
  obtain ⟨reserve, second, secondValue⟩ := report .reserve
  obtain ⟨growth, third, thirdValue⟩ := report .growth
  rw [reported_exact short] at firstValue secondValue thirdValue
  change b.operating = _ at first
  change b.reserve = _ at second
  change b.growth = _ at third
  refine ⟨⟨operating, reserve, growth⟩, ?_, firstValue, secondValue, thirdValue⟩
  rw [finiteBalances, first, second, third]
  rfl

/-- What a digest reports of a run and of a ledger. -/
structure Mailed (start : DateTime) (calls : List HarnessCall) (rows : Ledger) (figures : Figures) :
    Prop where
  weekEnd : figures.weekEnd = start.day + daysIn start calls
  operating : figures.operating = entered rows .operating
  reserve : figures.reserve = entered rows .reserve
  growth : figures.growth = entered rows .growth
  revenue : figures.revenue = totalWorth (earned calls)
  cost : figures.cost = totalWorth (spent calls)

/-- After any calls of the harness its margin is what was earned less what was spent, to
    the last millionth. A mail about it and about a ledger has the day to which the clock
    was moved, the same totals and what was entered into each pot, with nothing rounded on
    the way from the calls and the rows to the text. -/
theorem simulation_mailed (start : DateTime) {calls : List HarnessCall} (bounded : Bounded calls)
    {rows : Ledger} (short : Short rows) :
    ∃ h, h = run harnessStep ⟨start, 0, .ofNat 0, .ofNat 0⟩ calls ∧
      (∃ margin, h.marginUsd = .ok margin ∧
        margin.HasValue (totalWorth (earned calls) - totalWorth (spent calls))) ∧
      ∃ b balances, outcome balance rows = (.ok b, rows) ∧ finiteBalances b = .ok balances ∧
        ∀ (host : FreezeExperiment.Host) (tree : FreezeExperiment.Tree) (week : Week)
          (d : WeeklyDigest) (mail : UnicodeText.Text), week.potBalances = balances →
          week.revenueUsd = h.revenueTotalUsd → week.costUsd = h.costTotalUsd →
          buildWeeklyDigest host tree h.clock week = .ok d → renderDigestEmail d = .ok mail →
          ∃ figures, readFigures mail = some figures ∧ Mailed start calls rows figures := by
  have holds := holds_run start bounded
  obtain ⟨b, reading, report⟩ := balance_reports rows
  obtain ⟨balances, finite, operating, reserve, growth⟩ := finiteBalances_exact short report
  refine ⟨_, rfl, margin_exact bounded holds, b, balances, reading, finite, ?_⟩
  intro host tree week d mail pots revenue cost built rendered
  have digest := digestOf_built built
  refine ⟨_, read_rendered rendered, ?_⟩
  rw [digest.weekEnd, digest.potBalances, pots]
  have earnedValue := holds.revenue
  rw [← revenue, digest.revenue] at earnedValue
  have spentValue := holds.cost
  rw [← cost, digest.cost] at spentValue
  refine ⟨?_, operating, reserve, growth, ?_, ?_⟩
  · rw [← holds.days]
    exact holds.clock
  · exact (hasValue_finite d.revenueUsd).unique earnedValue
  · exact (hasValue_finite d.costUsd).unique spentValue

def twoDays : List HarnessCall := [.advanceDay, .addRevenue (.ofNat 500), .advanceDay]

theorem two_days_mailed : ∃ h,
    h = run harnessStep ⟨firstDay, 0, .ofNat 0, .ofNat 0⟩ twoDays ∧
      (∃ margin, h.marginUsd = .ok margin ∧ margin.HasValue 500) ∧
      ∃ b balances, outcome balance (lateTopUp []) = (.ok b, lateTopUp []) ∧
        finiteBalances b = .ok balances ∧ ∃ d mail figures,
          buildWeeklyDigest FreezeExperiment.freezeHost (fun _ => none) h.clock { quietWeek with
            potBalances := balances
            revenueUsd := h.revenueTotalUsd
            costUsd := h.costTotalUsd } = .ok d ∧ renderDigestEmail d = .ok mail ∧
          readFigures mail = some figures ∧ figures.weekEnd = firstDay.day + 2 ∧
          figures.operating = 40 ∧ figures.revenue = 500 := by
  have amount : IsAmount (.ofNat 500) := by
    have value : (FiniteDecimal.ofNat 500).toRat = 500 := by
      simp [FiniteDecimal.toRat, FiniteDecimal.ofNat, FiniteDecimal.signed]
    exact ⟨.ofNat 500, rfl, by rw [value]; exact ⟨500 * 10 ^ 6, by norm_num⟩,
      by rw [value]; norm_num⟩
  have income : earned twoDays = [.ofNat 500] := rfl
  have total : totalWorth (earned twoDays) = 500 := by
    rw [income]
    simp [totalWorth, ChildSupervisor.worth, Decimal.ofNat, FiniteDecimal.toRat,
      FiniteDecimal.ofNat, FiniteDecimal.signed]
  have bounded : Bounded twoDays := by
    refine ⟨by decide, ?_, by simp [SimulationMode.spent, twoDays, costIn]⟩
    rw [income]
    exact List.forall_mem_singleton.mpr amount
  have short : Short (lateTopUp []) := by
    unfold Short
    decide +kernel
  obtain ⟨h, ran, ⟨margin, returned, value⟩, b, balances, reading, finite, mailed⟩ :=
    simulation_mailed firstDay bounded short
  have free : totalWorth (spent twoDays) = 0 := rfl
  rw [total, free, sub_zero] at value
  refine ⟨h, ran, ⟨margin, returned, value⟩, b, balances, reading, finite, ?_⟩
  have built : ∃ d, buildWeeklyDigest FreezeExperiment.freezeHost (fun _ => none) h.clock { quietWeek with
      potBalances := balances
      revenueUsd := h.revenueTotalUsd
      costUsd := h.costTotalUsd } = .ok d := by
    subst ran
    exact ⟨_, rfl⟩
  obtain ⟨d, built⟩ := built
  have digest := digestOf_built built
  have children : d.activeChildren = 2 := digest.children
  have proposals : d.proposalsAwaitingApproval = 1 := digest.proposals
  have escalations : d.ethicsEscalations = 0 := digest.escalations
  have rendered : ∃ mail, renderDigestEmail d = .ok mail := by
    rw [renderDigestEmail, children, proposals, escalations]
    exact ⟨_, rfl⟩
  obtain ⟨mail, rendered⟩ := rendered
  obtain ⟨figures, read, told⟩ := mailed _ _ _ d mail rfl rfl rfl built rendered
  refine ⟨d, mail, figures, built, rendered, read, told.weekEnd, ?_, ?_⟩
  · rw [told.operating]
    decide +kernel
  · rw [told.revenue, total]

end SimulationMode
