import AgentEcosystem.Decimal.HasValue
import AgentEcosystem.Schemas
import AgentEcosystem.Semantics.Raising
import Mathlib.Data.List.Sort

/-!
The ladder on which the mother agent expands: the rung that revenue and channels
have reached, whether one more vertical may be proposed there, and whether it has to
use a channel of its own.
-/
namespace ExpansionLadder
open AgentSchemas DecimalArithmetic Raising

structure RungRow where
  minRevenueUsd : FiniteDecimal
  minChannels : ℕ
  maxChildren : ℕ
  deriving DecidableEq, Repr

def rungThresholds : List (ℕ × RungRow) :=
  [(1, ⟨.ofNat 0, 0, 1⟩),
    (2, ⟨.ofNat 100, 1, 2⟩),
    (3, ⟨.ofNat 500, 2, 3⟩),
    (4, ⟨.ofNat 2000, 2, 5⟩),
    (5, ⟨.ofNat 10000, 2, 8⟩)]

inductive LadderError where
  | keyError (rung : ℕ)
  /-- A comparison of amounts trapped. -/
  | decimalSignal (signal : Signal)
  deriving DecidableEq, Repr

structure RungConfig where
  rung : ℕ
  minRevenueUsd : FiniteDecimal
  minChannels : ℕ
  maxChildren : ℕ
  deriving DecidableEq, Repr

def asConfig (rung : ℕ) : Except LadderError RungConfig :=
  match rungThresholds.lookup rung with
  | some row => .ok ⟨rung, row.minRevenueUsd, row.minChannels, row.maxChildren⟩
  | none => .error (.keyError rung)

/-- `amount >= limit` -/
def atLeast (amount : Decimal) (limit : FiniteDecimal) : Except LadderError Bool :=
  (Decimal.le (.finite limit) amount).mapError .decimalSignal

/-- `amount < limit` -/
def below (amount : Decimal) (limit : FiniteDecimal) : Except LadderError Bool :=
  (amount.lt (.finite limit)).mapError .decimalSignal

/-- One round of the loop in `current_rung`. -/
def considerRung (trailing30dRevenueUsd : Decimal) (liveChannelCount best rung : ℕ) :
    Except LadderError ℕ := do
  let cfg ← asConfig rung
  let earned ← atLeast trailing30dRevenueUsd cfg.minRevenueUsd
  if earned && cfg.minChannels ≤ liveChannelCount then return rung else return best

def sortedRungs : List ℕ := (rungThresholds.map Prod.fst).insertionSort (· ≤ ·)

def currentRung (trailing30dRevenueUsd : Decimal) (liveChannelCount : ℕ) : Except LadderError ℕ :=
  sortedRungs.foldlM (considerRung trailing30dRevenueUsd liveChannelCount) 1

structure ProposalGate where
  allowed : Bool
  reason : String
  rung : ℕ
  maxChildren : ℕ
  deriving DecidableEq, Repr

def canProposeNew (trailing30dRevenueUsd : Decimal) (liveChannelCount liveChildren : ℕ) :
    Except LadderError ProposalGate := do
  let rung ← currentRung trailing30dRevenueUsd liveChannelCount
  let cfg ← asConfig rung
  -- the concentration rule
  let concentrated ← atLeast trailing30dRevenueUsd (.ofNat 500)
  if concentrated && liveChannelCount < 2 then
    return ⟨false, "concentration_rule_halt", rung, cfg.maxChildren⟩
  if cfg.maxChildren ≤ liveChildren then
    return ⟨false, s!"max_children_reached_{cfg.maxChildren}", rung, cfg.maxChildren⟩
  -- the second child needs revenue
  let short ← if 1 ≤ liveChildren then below trailing30dRevenueUsd (.ofNat 100) else .ok false
  if short then
    return ⟨false, "rung2_requires_100_revenue", rung, cfg.maxChildren⟩
  return ⟨true, "ok", rung, cfg.maxChildren⟩

def mustUseDifferentChannel (liveChannels : List String) (proposedChannel : String) : Bool :=
  if 2 ≤ liveChannels.length then proposedChannel ∉ liveChannels else true

def Reached (revenue : Decimal) (limit : FiniteDecimal) : Prop :=
  Decimal.le (.finite limit) revenue = .ok true

def Satisfied (revenue : Decimal) (channels rung : ℕ) : Prop :=
  ∃ cfg, asConfig rung = .ok cfg ∧ Reached revenue cfg.minRevenueUsd ∧ cfg.minChannels ≤ channels

section Rung
variable {revenue : Decimal} {channels best best' rung : ℕ}

theorem atLeast_ok {limit : FiniteDecimal} {b : Bool} (h : atLeast revenue limit = .ok b) :
    b = true ↔ Reached revenue limit := by
  have compared := ok_of_mapError h
  rw [Reached, compared]
  simp

theorem atLeast_returns (number : revenue.isNaN = false) (limit : FiniteDecimal) :
    ∃ b, atLeast revenue limit = .ok b := by
  obtain ⟨b, compared⟩ : ∃ b, Decimal.le (.finite limit) revenue = .ok b :=
    Decimal.le_ok_iff.mpr (by rw [number]; rfl)
  refine ⟨b, ?_⟩
  rw [atLeast, compared]
  rfl

theorem considerRung_ok (h : considerRung revenue channels best rung = .ok best') :
    (Satisfied revenue channels rung ∧ best' = rung) ∨
      (¬ Satisfied revenue channels rung ∧ best' = best) := by
  obtain ⟨cfg, found, h⟩ := ok_of_bind h
  obtain ⟨earned, compared, h⟩ := ok_of_bind h
  by_cases met : (earned && decide (cfg.minChannels ≤ channels)) = true
  · rw [if_pos met] at h
    cases h
    rw [Bool.and_eq_true, decide_eq_true_eq] at met
    exact .inl ⟨⟨cfg, found, (atLeast_ok compared).mp met.1, met.2⟩, rfl⟩
  · rw [if_neg met] at h
    cases h
    refine .inr ⟨?_, rfl⟩
    rintro ⟨cfg', found', reached, enough⟩
    rw [found] at found'
    cases found'
    exact met (by rw [(atLeast_ok compared).mpr reached, decide_eq_true enough]; rfl)

/- The loop ends with the rung it started from or a satisfied one, and none of the
   later rungs that are satisfied is above it. -/
theorem considerRungs_ok {rungs : List ℕ} (sorted : rungs.Pairwise (· ≤ ·))
    (start : ∀ r ∈ rungs, best ≤ r)
    (h : rungs.foldlM (considerRung revenue channels) best = .ok best') :
    (best' = best ∨ Satisfied revenue channels best') ∧ best ≤ best' ∧
      ∀ r ∈ rungs, Satisfied revenue channels r → r ≤ best' := by
  induction rungs generalizing best with
  | nil =>
    cases h
    exact ⟨.inl rfl, le_refl _, by simp⟩
  | cons rung rungs ih =>
    rw [List.foldlM_cons] at h
    obtain ⟨middle, considered, loop⟩ := ok_of_bind h
    obtain ⟨above, sortedTail⟩ := List.pairwise_cons.mp sorted
    have startHere := start rung List.mem_cons_self
    rcases considerRung_ok considered with ⟨satisfied, moved⟩ | ⟨unsatisfied, stayed⟩
    · subst moved
      obtain ⟨ends, up, later⟩ := ih sortedTail above loop
      refine ⟨.inr ?_, by omega, ?_⟩
      · rcases ends with same | ends
        · rw [same]
          exact satisfied
        · exact ends
      · simp only [List.forall_mem_cons]
        exact ⟨fun _ => up, later⟩
    · subst stayed
      obtain ⟨ends, up, later⟩ :=
        ih sortedTail (fun r mem => start r (List.mem_cons_of_mem rung mem)) loop
      refine ⟨ends, up, ?_⟩
      simp only [List.forall_mem_cons]
      exact ⟨fun satisfied => absurd satisfied unsatisfied, later⟩

theorem considerRungs_returns (number : revenue.isNaN = false) {rungs : List ℕ}
    (known : ∀ r ∈ rungs, ∃ cfg, asConfig r = .ok cfg) (best : ℕ) :
    ∃ best', rungs.foldlM (considerRung revenue channels) best = .ok best' := by
  induction rungs generalizing best with
  | nil => exact ⟨best, rfl⟩
  | cons rung rungs ih =>
    obtain ⟨cfg, found⟩ := known rung List.mem_cons_self
    obtain ⟨earned, compared⟩ := atLeast_returns number cfg.minRevenueUsd
    have considered : ∃ next, considerRung revenue channels best rung = .ok next := by
      rw [considerRung, found]
      simp only [bind, Except.bind, compared]
      split <;> exact ⟨_, rfl⟩
    obtain ⟨next, considered⟩ := considered
    obtain ⟨best', rest⟩ := ih (fun r mem => known r (List.mem_cons_of_mem rung mem)) next
    exact ⟨best', by rw [List.foldlM_cons, considered]; exact rest⟩

theorem asConfig_row {p : ℕ × RungRow} (mem : p ∈ rungThresholds) : asConfig p.1 =
    .ok ⟨p.1, p.2.minRevenueUsd, p.2.minChannels, p.2.maxChildren⟩ := by
  have all : ∀ p ∈ rungThresholds, asConfig p.1 =
      .ok ⟨p.1, p.2.minRevenueUsd, p.2.minChannels, p.2.maxChildren⟩ := by
    simp only [rungThresholds, List.forall_mem_cons, List.not_mem_nil, false_implies, implies_true,
      and_true]
    decide
  exact all p mem

theorem row_of_config {cfg : RungConfig} (found : asConfig rung = .ok cfg) :
    ∃ p ∈ rungThresholds, p.1 = rung ∧
      cfg = ⟨p.1, p.2.minRevenueUsd, p.2.minChannels, p.2.maxChildren⟩ := by
  unfold asConfig at found
  split at found
  · next row isRow =>
    cases found
    obtain ⟨before, after, whole, _⟩ := List.lookup_eq_some_iff.mp isRow
    exact ⟨(rung, row), by simp [whole], rfl, rfl⟩
  · cases found

/-- The current rung is the highest one whose thresholds are met, and the first rung
    where none is. -/
theorem currentRung_ok (h : currentRung revenue channels = .ok rung) :
    (rung = 1 ∨ Satisfied revenue channels rung) ∧
      ∀ r, Satisfied revenue channels r → r ≤ rung := by
  have sorted : sortedRungs.Pairwise (· ≤ ·) := by decide
  have start : ∀ r ∈ sortedRungs, 1 ≤ r := by decide
  obtain ⟨ends, _, highest⟩ := considerRungs_ok sorted start h
  refine ⟨ends, ?_⟩
  rintro r ⟨cfg, found, met⟩
  obtain ⟨p, mem, rfl, _⟩ := row_of_config found
  apply highest p.1 _ ⟨cfg, found, met⟩
  exact (List.mem_insertionSort _).mpr (List.mem_map_of_mem mem)

theorem currentRung_returns (number : revenue.isNaN = false) :
    ∃ rung, currentRung revenue channels = .ok rung := by
  apply considerRungs_returns number
  intro r mem
  obtain ⟨p, row, rfl⟩ := List.mem_map.mp ((List.mem_insertionSort _).mp mem)
  exact ⟨_, asConfig_row row⟩

end Rung

/-- The thresholds that the revenue reaches let one more child live. -/
def RoomLeft (revenue : Decimal) (liveChildren : ℕ) : Prop :=
  revenue.isNaN = false ∧ (liveChildren = 0 ∨ ∃ p ∈ rungThresholds,
    Reached revenue p.2.minRevenueUsd ∧ liveChildren < p.2.maxChildren)

section Gate
variable {revenue : Decimal} {channels children : ℕ}

theorem reached_mono {limit lower : FiniteDecimal} (le : lower.le limit = true)
    (h : Reached revenue limit) : Reached revenue lower := by
  unfold Reached at h ⊢
  cases revenue with
  | nan => cases h
  | infinity s => exact h
  | finite x =>
    rw [Decimal.le_hasValue (Decimal.hasValue_finite _) (Decimal.hasValue_finite x)] at h ⊢
    have reached := of_decide_eq_true (Except.ok.inj h)
    rw [decide_eq_true (((le_iff_toRat _ _).mp le).trans reached)]

theorem below_of_reached {limit : FiniteDecimal} (h : Reached revenue limit) :
    below revenue limit = .ok false := by
  rw [Reached, Decimal.le] at h
  unfold below
  rcases compared : revenue.lt (.finite limit) with signal | _ | _
  · rw [compared] at h
    cases h
  · rfl
  · rw [compared] at h
    cases h

theorem caps_mono : ∀ p ∈ rungThresholds, ∀ q ∈ rungThresholds, p.1 ≤ q.1 →
    p.2.maxChildren ≤ q.2.maxChildren := by decide

theorem cap_facts : ∀ p ∈ rungThresholds, 1 ≤ p.2.maxChildren ∧ p.2.minChannels ≤ 2 ∧
    (p.1 = 1 → p.2.maxChildren = 1) ∧
    (2 ≤ p.2.maxChildren → (FiniteDecimal.ofNat 100).le p.2.minRevenueUsd = true) := by decide

theorem currentRung_row {rung : ℕ} (current : currentRung revenue channels = .ok rung) :
    ∃ p ∈ rungThresholds, p.1 = rung ∧
      (rung = 1 ∨ (Reached revenue p.2.minRevenueUsd ∧ p.2.minChannels ≤ channels)) := by
  rcases (currentRung_ok current).1 with rfl | ⟨cfg, found, reached, enough⟩
  · exact ⟨(1, _), List.mem_cons_self, rfl, .inl rfl⟩
  · obtain ⟨p, mem, here, rfl⟩ := row_of_config found
    exact ⟨p, mem, here, .inr ⟨reached, enough⟩⟩

/- A rung with room for a second child has the revenue the last guard asks for. -/
theorem revenue_of_room {p : ℕ × RungRow} (row : p ∈ rungThresholds)
    (current : currentRung revenue channels = .ok p.1) (some_child : 1 ≤ children)
    (room : children < p.2.maxChildren) : below revenue (.ofNat 100) = .ok false := by
  obtain ⟨_, _, firstCap, rich⟩ := cap_facts p row
  obtain ⟨q, qRow, same, ends⟩ := currentRung_row current
  have cap := caps_mono p row q qRow same.ge
  have higher : p.1 ≠ 1 := by
    intro first
    have := firstCap first
    omega
  rcases ends with first | ⟨reached, _⟩
  · exact absurd first higher
  · exact below_of_reached (reached_mono ((cap_facts q qRow).2.2.2 (by omega)) reached)

theorem reasons_differ : ∀ p ∈ rungThresholds,
    s!"max_children_reached_{p.2.maxChildren}" ≠ "rung2_requires_100_revenue" := by
  decide +kernel

theorem canProposeNew_gate {p : ℕ × RungRow} (number : revenue.isNaN = false)
    (row : p ∈ rungThresholds) (current : currentRung revenue channels = .ok p.1)
    (children : ℕ) :
    ∃ gate, canProposeNew revenue channels children = .ok gate ∧ gate.rung = p.1 ∧
      gate.maxChildren = p.2.maxChildren ∧ gate.reason ≠ "rung2_requires_100_revenue" ∧
      (gate.allowed = true ↔
        children < p.2.maxChildren ∧ ¬ (Reached revenue (.ofNat 500) ∧ channels < 2)) := by
  obtain ⟨rich, compared⟩ := atLeast_returns number (.ofNat 500)
  have reached := atLeast_ok compared
  simp only [canProposeNew, current, asConfig_row row, compared, bind, Except.bind]
  by_cases concentrated : (rich && decide (channels < 2)) = true
  · rw [if_pos concentrated]
    rw [Bool.and_eq_true, reached, decide_eq_true_eq] at concentrated
    refine ⟨_, rfl, rfl, rfl, by dsimp only; decide, ?_⟩
    simp [concentrated]
  · rw [if_neg concentrated]
    rw [Bool.and_eq_true, reached, decide_eq_true_eq] at concentrated
    by_cases full : p.2.maxChildren ≤ children
    · rw [if_pos full]
      refine ⟨_, rfl, rfl, rfl, reasons_differ p row, ?_⟩
      simp only [Bool.false_eq_true, false_iff]
      omega
    · rw [if_neg full]
      have room : children < p.2.maxChildren := by omega
      by_cases some_child : 1 ≤ children
      · simp only [if_pos some_child, revenue_of_room row current some_child room]
        exact ⟨_, rfl, rfl, rfl, by dsimp only; decide, fun _ => ⟨room, concentrated⟩, fun _ => rfl⟩
      · simp only [if_neg some_child]
        exact ⟨_, rfl, rfl, rfl, by dsimp only; decide, fun _ => ⟨room, concentrated⟩, fun _ => rfl⟩

theorem currentRung_nan (nan : revenue.isNaN = true) :
    currentRung revenue channels = .error (.decimalSignal .invalidOperation) := by
  have compared : ∀ limit, atLeast revenue limit = .error (.decimalSignal .invalidOperation) := by
    intro limit
    cases revenue with
    | nan => rfl
    | infinity => cases nan
    | finite => cases nan
  have first : sortedRungs = [1, 2, 3, 4, 5] := by decide
  rw [currentRung, first, List.foldlM_cons, considerRung]
  simp only [compared]
  rfl

theorem canProposeNew_nan (nan : revenue.isNaN = true) :
    canProposeNew revenue channels children = .error (.decimalSignal .invalidOperation) := by
  rw [canProposeNew, currentRung_nan nan]
  rfl

theorem allowed_iff (enough : 2 ≤ channels) :
    (∃ gate, canProposeNew revenue channels children = .ok gate ∧ gate.allowed = true) ↔
      RoomLeft revenue children := by
  cases number : revenue.isNaN with
  | true =>
    constructor
    · rintro ⟨gate, proposed, _⟩
      cases (canProposeNew_nan number).symm.trans proposed
    · rintro ⟨isNumber, _⟩
      rw [number] at isNumber
      cases isNumber
  | false =>
    obtain ⟨rung, current⟩ : ∃ rung, currentRung revenue channels = .ok rung :=
      currentRung_returns number
    obtain ⟨p, row, rfl, ends⟩ := currentRung_row current
    obtain ⟨gate, proposed, _, _, _, allowed⟩ := canProposeNew_gate number row current children
    have diverse : ¬ (Reached revenue (.ofNat 500) ∧ channels < 2) := by omega
    obtain ⟨positive, _, firstCap, _⟩ := cap_facts p row
    constructor
    · rintro ⟨gate', proposed', isAllowed⟩
      rw [proposed] at proposed'
      cases proposed'
      have room := (allowed.mp isAllowed).1
      refine ⟨number, ?_⟩
      rcases ends with first | ⟨reached, _⟩
      · have := firstCap first
        exact .inl (by omega)
      · exact .inr ⟨p, row, reached, room⟩
    · rintro ⟨_, none | ⟨q, qRow, reached, room⟩⟩
      · exact ⟨gate, proposed, allowed.mpr ⟨by omega, diverse⟩⟩
      · obtain ⟨_, channelsMet, _, _⟩ := cap_facts q qRow
        have lower := (currentRung_ok current).2 q.1
          ⟨_, asConfig_row qRow, reached, by simp only; omega⟩
        have cap := caps_mono q qRow p row lower
        exact ⟨gate, proposed, allowed.mpr ⟨by omega, diverse⟩⟩

end Gate

def LadderOpen (trailing30dRevenueUsd : Decimal) (liveChannels : List RevenueChannel)
    (liveChildren : ℕ) : Prop :=
  ∀ gate, canProposeNew trailing30dRevenueUsd liveChannels.length liveChildren = .ok gate →
    gate.allowed = true →
      ∃ c : RevenueChannel,
        mustUseDifferentChannel (liveChannels.map RevenueChannel.value) c.value = true

theorem value_injective : Function.Injective RevenueChannel.value := by
  intro c d same
  cases c <;> cases d <;> first | rfl | (revert same; decide)

theorem length_of_all {liveChannels : List RevenueChannel} (all : ∀ c, c ∈ liveChannels) :
    3 ≤ liveChannels.length := by
  have different : [RevenueChannel.polar, .lemonsqueezy, .stripeConnect].Nodup := by decide
  exact different.length_le_of_subset fun c _ => all c

/-- The ladder is open exactly where a channel is still free or no child has room: the
    rule for the third vertical is applied to all later ones too. -/
theorem ladderOpen_iff (trailing30dRevenueUsd : Decimal) (liveChannels : List RevenueChannel)
    (liveChildren : ℕ) : LadderOpen trailing30dRevenueUsd liveChannels liveChildren ↔
      (∃ c, c ∉ liveChannels) ∨ ¬ RoomLeft trailing30dRevenueUsd liveChildren := by
  by_cases free : ∃ c, c ∉ liveChannels
  · obtain ⟨c, unused⟩ := free
    have usable : mustUseDifferentChannel (liveChannels.map RevenueChannel.value) c.value = true := by
      have absent : c.value ∉ liveChannels.map RevenueChannel.value := by
        rw [List.mem_map_of_injective value_injective]
        exact unused
      unfold mustUseDifferentChannel
      split
      · exact decide_eq_true absent
      · rfl
    exact ⟨fun _ => .inl ⟨c, unused⟩, fun _ _ _ _ => ⟨c, usable⟩⟩
  · have all : ∀ c, c ∈ liveChannels := fun c => by_contra fun unused => free ⟨c, unused⟩
    have three := length_of_all all
    have blocked : ∀ c : RevenueChannel,
        mustUseDifferentChannel (liveChannels.map RevenueChannel.value) c.value = false := by
      intro c
      have length : 2 ≤ (liveChannels.map RevenueChannel.value).length := by
        rw [List.length_map]
        omega
      rw [mustUseDifferentChannel, if_pos length]
      exact decide_eq_false (not_not.mpr (List.mem_map_of_mem (all c)))
    have two : 2 ≤ liveChannels.length := by omega
    have room : (∃ gate, canProposeNew trailing30dRevenueUsd liveChannels.length liveChildren =
        .ok gate ∧ gate.allowed = true) ↔ RoomLeft trailing30dRevenueUsd liveChildren :=
      allowed_iff two
    constructor
    · intro isOpen
      right
      intro left
      obtain ⟨gate, proposed, allowed⟩ := room.mpr left
      obtain ⟨c, usable⟩ := isOpen gate proposed allowed
      rw [blocked c] at usable
      cases usable
    · rintro (unused | full) gate proposed allowed
      · exact absurd unused free
      · exact absurd (room.mp ⟨gate, proposed, allowed⟩) full

/-- Three children on three channels, with the revenue for eight. -/
theorem three_channels_block_fourth_child :
    ¬ LadderOpen (.ofNat 10000) [.polar, .lemonsqueezy, .stripeConnect] 3 := by
  intro isOpen
  obtain ⟨c, usable⟩ := isOpen ⟨true, "ok", 5, 8⟩ (by decide +kernel) rfl
  revert usable
  cases c <;> decide

end ExpansionLadder
