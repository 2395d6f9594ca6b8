import AgentEcosystem.Mother.ExpansionLadder
import AgentEcosystem.Semantics.Runs
import Mathlib.Order.Bounds.Basic

/-!
The ladder as a whole: which rung stands for which revenue and channels, how the gate
moves with its arguments, and how many children live while they are added through it.
-/
namespace ExpansionLadder
open AgentSchemas DecimalArithmetic Raising Runs

def HighestRung (revenue : Decimal) (channels rung : ℕ) : Prop :=
  IsGreatest {r | Satisfied revenue channels r} rung ∨
    (rung = 1 ∧ ∀ r, ¬ Satisfied revenue channels r)

def Allowed (revenue : Decimal) (channels children : ℕ) : Prop :=
  ∃ gate, canProposeNew revenue channels children = .ok gate ∧ gate.allowed = true

section Rungs
variable {revenue revenue' : Decimal} {channels channels' rung rung' : ℕ}

theorem one_le_satisfied (met : Satisfied revenue channels rung) : 1 ≤ rung := by
  obtain ⟨cfg, found, _⟩ := met
  obtain ⟨p, row, rfl, _⟩ := row_of_config found
  have positive : ∀ p ∈ rungThresholds, 1 ≤ p.1 := by decide
  exact positive p row

theorem highestRung_of_current (current : currentRung revenue channels = .ok rung) :
    HighestRung revenue channels rung := by
  obtain ⟨ends, highest⟩ := currentRung_ok current
  rcases ends with rfl | met
  · by_cases none : ∀ r, ¬ Satisfied revenue channels r
    · exact .inr ⟨rfl, none⟩
    · obtain ⟨r, met⟩ := not_forall_not.mp none
      have first : r = 1 := by
        have := highest r met
        have := one_le_satisfied met
        omega
      exact .inl ⟨first ▸ met, highest⟩
  · exact .inl ⟨met, highest⟩

theorem reached_of_le (le : revenue.le revenue' = .ok true) {limit : FiniteDecimal}
    (reached : Reached revenue limit) : Reached revenue' limit := by
  unfold Reached at reached ⊢
  cases revenue with
  | nan => cases reached
  | infinity s =>
    cases s with
    | true => cases reached
    | false =>
      cases revenue' with
      | nan => cases le
      | finite y => cases le
      | infinity t =>
        cases t with
        | true => cases le
        | false => rfl
  | finite x =>
    cases revenue' with
    | nan => cases le
    | infinity t =>
      cases t with
      | true => cases le
      | false => rfl
    | finite y =>
      rw [Decimal.le_hasValue (Decimal.hasValue_finite _) (Decimal.hasValue_finite _)] at *
      have below := of_decide_eq_true (Except.ok.inj le)
      have above := of_decide_eq_true (Except.ok.inj reached)
      rw [decide_eq_true (above.trans below)]

/- More revenue and more channels meet the thresholds that fewer met. -/
theorem currentRung_mono (more : ∀ limit, Reached revenue limit → Reached revenue' limit)
    (wider : channels ≤ channels') (current : currentRung revenue channels = .ok rung)
    (current' : currentRung revenue' channels' = .ok rung') : rung ≤ rung' := by
  rcases (currentRung_ok current).1 with first | ⟨cfg, found, reached, enough⟩
  · rcases (currentRung_ok current').1 with first' | met
    · omega
    · have := one_le_satisfied met
      omega
  · exact (currentRung_ok current').2 rung ⟨cfg, found, more _ reached, enough.trans wider⟩

end Rungs

section Gate
variable {revenue : Decimal} {channels channels' children children' : ℕ}

theorem number_of_allowed (allowed : Allowed revenue channels children) :
    revenue.isNaN = false := by
  obtain ⟨gate, proposed, _⟩ := allowed
  cases number : revenue.isNaN with
  | false => rfl
  | true => cases (canProposeNew_nan number).symm.trans proposed

theorem gate_of_rung (number : revenue.isNaN = false) (channels children : ℕ) :
    ∃ gate cfg, canProposeNew revenue channels children = .ok gate ∧
      currentRung revenue channels = .ok gate.rung ∧ asConfig gate.rung = .ok cfg ∧
      gate.reason ≠ "rung2_requires_100_revenue" ∧
      (gate.allowed = true ↔
        children < cfg.maxChildren ∧ ¬ (Reached revenue (.ofNat 500) ∧ channels < 2)) := by
  obtain ⟨rung, current⟩ : ∃ rung, currentRung revenue channels = .ok rung :=
    currentRung_returns number
  obtain ⟨p, row, rfl, _⟩ := currentRung_row current
  obtain ⟨gate, proposed, same, _, reason, allowed⟩ :=
    canProposeNew_gate number row current children
  have found : asConfig gate.rung =
      .ok ⟨p.1, p.2.minRevenueUsd, p.2.minChannels, p.2.maxChildren⟩ := by
    rw [same, asConfig_row row]
  exact ⟨gate, _, proposed, by rw [same, current], found, reason, allowed⟩

theorem allowed_mono (allowed : Allowed revenue channels children) (wider : channels ≤ channels')
    (fewer : children' ≤ children) : Allowed revenue channels' children' := by
  have number := number_of_allowed allowed
  obtain ⟨gate, proposed, isAllowed⟩ := allowed
  obtain ⟨rung, current⟩ : ∃ rung, currentRung revenue channels = .ok rung :=
    currentRung_returns number
  obtain ⟨rung', current'⟩ : ∃ rung, currentRung revenue channels' = .ok rung :=
    currentRung_returns number
  have higher := currentRung_mono (fun _ reached => reached) wider current current'
  obtain ⟨p, row, rfl, _⟩ := currentRung_row current
  obtain ⟨q, row', rfl, _⟩ := currentRung_row current'
  have cap := caps_mono p row q row' higher
  obtain ⟨_, again, _, _, _, decides⟩ := canProposeNew_gate number row current children
  obtain ⟨gate', proposed', _, _, _, decides'⟩ := canProposeNew_gate number row' current' children'
  cases proposed.symm.trans again
  obtain ⟨room, diverse⟩ := decides.mp isAllowed
  refine ⟨gate', proposed', decides'.mpr ⟨by omega, ?_⟩⟩
  rintro ⟨rich, few⟩
  exact diverse ⟨rich, by omega⟩

end Gate

/-- What can happen to the children: one more is proposed at this revenue with these
    channels in use, or one of them ends. -/
inductive LadderAction where
  | propose (trailing30dRevenueUsd : Decimal) (liveChannelCount : ℕ)
  | retire
  deriving DecidableEq, Repr

def ladderStep (liveChildren : ℕ) : LadderAction → ℕ
  | .propose revenue channels =>
    match canProposeNew revenue channels liveChildren with
    | .ok gate => if gate.allowed then liveChildren + 1 else liveChildren
    | .error _ => liveChildren
  | .retire => liveChildren - 1

def largestCap : ℕ := (rungThresholds.map fun p => p.2.maxChildren).foldr max 0

theorem le_largestCap : ∀ p ∈ rungThresholds, p.2.maxChildren ≤ largestCap := by decide

theorem ladderStep_within (children : ℕ) (a : LadderAction) (within : children ≤ largestCap) :
    ladderStep children a ≤ largestCap := by
  cases a with
  | retire =>
    simp only [ladderStep]
    omega
  | propose revenue channels =>
    simp only [ladderStep]
    split
    · next gate proposed =>
      split
      · next isAllowed =>
        have number := number_of_allowed ⟨gate, proposed, isAllowed⟩
        obtain ⟨gate', cfg, proposed', _, found, _, decides⟩ :=
          gate_of_rung number channels children
        cases proposed.symm.trans proposed'
        obtain ⟨p, row, _, rfl⟩ := row_of_config found
        have room := (decides.mp isAllowed).1
        have cap := le_largestCap p row
        simp only at room
        omega
      · exact within
    · exact within

theorem children_within (as : List LadderAction) :
    Throughout ladderStep (· ≤ largestCap) 0 as := by
  intro before _
  exact run_invariant ladderStep (· ≤ largestCap) ladderStep_within (Nat.zero_le _) before

/-- The laws of the ladder, for every revenue that is a number: its rung, what the gate
    decides on it, how both move with their arguments, and the bound on the children of
    a run. For a revenue that is no number both raise `InvalidOperation`. -/
theorem ladder_laws :
    (∀ revenue channels, revenue.isNaN = false →
      ∃ rung, currentRung revenue channels = .ok rung ∧ HighestRung revenue channels rung) ∧
    (∀ revenue revenue' channels channels' rung rung', revenue.le revenue' = .ok true →
      channels ≤ channels' → currentRung revenue channels = .ok rung →
      currentRung revenue' channels' = .ok rung' → rung ≤ rung') ∧
    (∀ revenue channels children, revenue.isNaN = false →
      ∃ gate cfg, canProposeNew revenue channels children = .ok gate ∧
        currentRung revenue channels = .ok gate.rung ∧ asConfig gate.rung = .ok cfg ∧
        gate.reason ≠ "rung2_requires_100_revenue" ∧
        (gate.allowed = true ↔
          children < cfg.maxChildren ∧ ¬ (Reached revenue (.ofNat 500) ∧ channels < 2))) ∧
    (∀ revenue channels channels' children children', Allowed revenue channels children →
      channels ≤ channels' → children' ≤ children → Allowed revenue channels' children') ∧
    (∀ as, Throughout ladderStep (· ≤ largestCap) 0 as) ∧
    (∀ revenue channels children, revenue.isNaN = true →
      currentRung revenue channels = .error (.decimalSignal .invalidOperation) ∧
        canProposeNew revenue channels children = .error (.decimalSignal .invalidOperation)) := by
  refine ⟨?_, ?_, ?_, ?_, children_within, ?_⟩
  · intro revenue channels number
    obtain ⟨rung, current⟩ : ∃ rung, currentRung revenue channels = .ok rung :=
      currentRung_returns number
    exact ⟨rung, current, highestRung_of_current current⟩
  · intro revenue revenue' channels channels' rung rung' le wider current current'
    exact currentRung_mono (fun _ reached => reached_of_le le reached) wider current current'
  · intro revenue channels children number
    exact gate_of_rung number channels children
  · intro revenue channels channels' children children' allowed wider fewer
    exact allowed_mono allowed wider fewer
  · intro revenue channels children nan
    exact ⟨currentRung_nan nan, canProposeNew_nan nan⟩

theorem ladder_laws_loss :
    ∃ rung, currentRung (.finite ⟨true, 5, 0⟩) 3 = .ok rung ∧
      HighestRung (.finite ⟨true, 5, 0⟩) 3 rung :=
  ladder_laws.1 (.finite ⟨true, 5, 0⟩) 3 rfl

/-- No rung stands for a revenue that is no number. -/
theorem nan_has_no_rung : ¬ ∃ rung, currentRung (.nan false false 0) 1 = .ok rung ∧
    HighestRung (.nan false false 0) 1 rung := by
  rintro ⟨rung, current, _⟩
  cases (currentRung_nan rfl).symm.trans current

end ExpansionLadder
