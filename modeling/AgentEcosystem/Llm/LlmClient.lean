import AgentEcosystem.Cashflow.Writes
import AgentEcosystem.Llm.ModelRouter

/-!
A budgeted call in its two halves: what happens before the provider is awaited
and what happens after its reply. The debit of a reply's cost may fail, and
then the response is returned all the same.
-/
namespace LlmClient
open AgentSchemas DecimalArithmetic NearestRounding Decimal Raising CashflowLedger ModelRouter

inductive ClientError where
  | systemHalted (msg : String)
  | budgetExceeded (msg : String)
  | providerError (msg : String)
  | ledgerError (e : LedgerError)
  | decimalSignal (signal : Signal)
  deriving DecidableEq, Repr

structure BudgetState where
  operatingPotUsd : Decimal
  monthlyBudgetUsd : Option Decimal := none
  spentMtdUsd : Decimal := .ofNat 0

structure LLMResponse where
  model : ModelID
  content : String
  tokensIn : ℤ
  tokensOut : ℤ
  costUsd : Decimal

structure CallRequest where
  agent : AgentTier
  task : TaskKind
  system : String
  user : String
  maxTokens : ℤ := 1024
  expectedTokensIn : ℤ := 1000

/-- The reply of `provider.call(model, system, user, max_tokens)`: a text with the
    tokens read and written, or an exception. -/
abbrev Provider := ModelID → String → String → ℤ → Except String (String × ℤ × ℤ)

def assertBudget (operating estCost : Decimal) (budget : Option BudgetState) :
    Raising ClientError Ledger Unit := do
  let left ← attempt .decimalSignal (operating.sub defaultContext estCost)
  if ← attempt .decimalSignal (left.lt operatingHardFloorUsd) then
    throw (.budgetExceeded (s!"Call cost ${estCost.str} would breach operating floor; " ++
      s!"operating=${operating.str}"))
  match budget with
  | none => return
  | some budget =>
    match budget.monthlyBudgetUsd with
    | none => return
    | some monthly =>
      let spent ← attempt .decimalSignal (budget.spentMtdUsd.add defaultContext estCost)
      if ← attempt .decimalSignal (monthly.lt spent) then
        throw (.budgetExceeded (s!"Call cost ${estCost.str} would breach monthly budget " ++
          s!"(${monthly.str}); spent_mtd=${budget.spentMtdUsd.str}"))

/-- The balance that the model choice and the budget check look at. -/
def operatingBalance (cashflow : Option CashflowService) (budget : Option BudgetState) :
    Raising ClientError Ledger Decimal :=
  match budget, cashflow with
  | some budget, _ => return budget.operatingPotUsd
  | none, some _ => do return (← relabel .ledgerError balance).operating
  | none, none => return .ofNat 1000

structure Admission where
  model : ModelID
  estCost : Decimal
  deriving DecidableEq, Repr

def admitCall (cashflow : Option CashflowService) (systemState : String) (request : CallRequest)
    (budget : Option BudgetState) : Raising ClientError Ledger Admission := do
  if systemState = "hard_stop" then
    throw (.systemHalted "system_state=HARD_STOP; refusing LLM call")
  let operating ← operatingBalance cashflow budget
  let model ← attempt .decimalSignal (route request.agent request.task operating)
  let estCost ← attempt .decimalSignal
    (estimateCostUsd model request.expectedTokensIn request.maxTokens)
  assertBudget operating estCost budget
  return ⟨model, estCost⟩

section Calls
variable (P : Platform)

/-- The post-call debit; a failing one is ignored. -/
def debitCost (cashflow : Option CashflowService) (actualCost : Decimal) :
    Raising ClientError Ledger Unit :=
  match cashflow with
  | none => return
  | some svc => do
    if ← attempt .decimalSignal ((Decimal.ofNat 0).lt actualCost) then
      swallow (debit P svc .operating actualCost .costAnthropic none "")

def settle (cashflow : Option CashflowService) (model : ModelID) (content : String)
    (tokensIn tokensOut : ℤ) : Raising ClientError Ledger LLMResponse := do
  let actualCost ← attempt .decimalSignal (estimateCostUsd model tokensIn tokensOut)
  debitCost P cashflow actualCost
  return ⟨model, content, tokensIn, tokensOut, actualCost⟩

def call (cashflow : Option CashflowService) (systemState : String) (provider : Provider)
    (request : CallRequest) (budget : Option BudgetState) :
    Raising ClientError Ledger LLMResponse := do
  let admission ← admitCall cashflow systemState request budget
  let (content, tokensIn, tokensOut) ← attempt .providerError
    (provider admission.model request.system request.user request.maxTokens)
  settle P cashflow admission.model content tokensIn tokensOut

end Calls

def valueOf : Decimal → ℚ
  | .finite x => x.toRat
  | _ => 0

theorem valueOf_hasValue {d : Decimal} {q : ℚ} (h : d.HasValue q) : valueOf d = q := by
  obtain ⟨x, rfl, rfl⟩ := h
  rfl

theorem assertBudget_spec (rows : Ledger) {operating estCost : Decimal} {pot est : ℚ}
    (hpot : operating.HasValue pot) (hest : estCost.HasValue est) :
    Ensures (assertBudget operating estCost none) rows
      (fun _ t => t = rows ∧ operatingFloor ≤ defaultContext.round (pot - est))
      (fun _ t => t = rows) := by
  apply ensures_bind
  apply ensures_attempt _ (by intros; rfl)
  intro left subtracted
  have value := sub_hasValue hpot hest subtracted
  apply ensures_bind
  rw [lt_hasValue value operatingFloor_value]
  apply ensures_attempt _ (by intros; rfl)
  intro below decided
  cases decided
  by_cases low : defaultContext.round (pot - est) < operatingFloor
  · rw [if_pos (decide_eq_true low)]
    exact ensures_bind (ensures_throw rfl)
  · rw [if_neg (by simpa using low)]
    exact ensures_pure ⟨rfl, not_lt.mp low⟩

theorem ensures_admitCall {cashflow : Option CashflowService} {systemState : String}
    {request : CallRequest} {budget : Option BudgetState} {rows : Ledger}
    {returns : Admission → Ledger → Prop} {raises : Ledger → Prop} (untouched : raises rows)
    (checked : Ensures (operatingBalance cashflow budget) rows
      (fun operating t => raises t ∧ ∀ model estCost,
        estimateCostUsd model request.expectedTokensIn request.maxTokens = .ok estCost →
        Ensures (assertBudget operating estCost budget) t
          (fun _ t => returns ⟨model, estCost⟩ t) fun _ t => raises t)
      fun _ t => raises t) :
    Ensures (admitCall cashflow systemState request budget) rows returns fun _ t => raises t := by
  unfold admitCall
  by_cases halted : systemState = "hard_stop"
  · simp only [halted, if_true]
    apply ensures_bind
    exact ensures_throw untouched
  · simp only [halted, if_false]
    apply ensures_bind
    apply ensures_mono checked _ fun _ _ raised => raised
    rintro operating t ⟨kept, check⟩
    apply ensures_bind
    apply ensures_attempt _ fun _ _ => kept
    intro model _
    apply ensures_bind
    apply ensures_attempt _ fun _ _ => kept
    intro estCost estimated
    apply ensures_bind
    apply ensures_mono (check model estCost estimated) _ fun _ _ raised => raised
    intro _ _ returned
    exact ensures_pure returned

/-- Admission without a budget reads the balance, writes nothing and leaves
    room for the estimate above the floor. -/
theorem admitCall_spec (svc : CashflowService) (systemState : String) (request : CallRequest)
    (rows : Ledger) :
    Ensures (admitCall (some svc) systemState request none) rows
      (fun admission t => t = rows ∧
        admission.estCost.HasValue
          (costValue admission.model request.expectedTokensIn request.maxTokens) ∧
        operatingFloor ≤ defaultContext.round (reported rows .operating -
          costValue admission.model request.expectedTokensIn request.maxTokens))
      (fun _ t => t = rows) := by
  apply ensures_admitCall
  · rfl
  · apply ensures_bind
    apply ensures_relabel
    apply ensures_snapshot
    intro snap report
    apply ensures_pure
    refine ⟨rfl, ?_⟩
    intro model estCost estimated
    have value := (estimate_value estimated).1
    apply ensures_mono (assertBudget_spec rows (report .operating) value) _ fun _ _ kept => kept
    rintro _ _ ⟨rfl, room⟩
    exact ⟨rfl, value, room⟩

theorem admitCall_keeps (svc : CashflowService) (systemState : String) (request : CallRequest)
    (rows : Ledger) : (outcome (admitCall (some svc) systemState request none) rows).2 = rows :=
  ensures_after (Q := fun t => t = rows)
    (ensures_mono (admitCall_spec svc systemState request rows) (fun _ _ kept => kept.1)
      fun _ _ kept => kept)

/-- The ledger takes the debit of a cost: it is an amount of the ledger's
    format and leaves Operating at or above the floor. -/
structure Payable (rows : Ledger) (cost : ℚ) : Prop where
  positive : 0 < cost
  onGrid : cost ∈ Grid ((10 : ℚ) ^ (-4 : ℤ))
  small : cost < 10 ^ 8
  room : operatingFloor ≤ defaultContext.round (reported rows .operating - cost)

theorem admits_iff_payable {rows : Ledger} {y : FiniteDecimal} {cost : ℚ} (pos : 0 < cost)
    (value : y.toRat = -cost) :
    Admits rows .operating y .costAnthropic "" ↔ Payable rows cost := by
  constructor
  · intro adm
    have room := adm.allowed (by rw [value]; linarith)
    have size := (abs_lt.mp (field_small adm.fits)).1
    have grid := grid_neg (field_grid adm.fits)
    rw [value] at size grid
    rw [neg_neg] at grid
    refine ⟨pos, grid, by linarith, ?_⟩
    rw [sub_eq_add_neg, ← value]
    exact room
  · rintro ⟨_, grid, small, room⟩
    refine ⟨by rw [value]; linarith, fun _ => ?_, ⟨?_, ?_⟩, by decide⟩
    · rw [value, DebitAllowed, ← sub_eq_add_neg]
      exact room
    · rw [value]
      exact grid_neg grid
    · rw [value, abs_neg, abs_of_pos pos]
      norm_num [deltaMaxDigits, deltaDecimalPlaces]
      linarith

def Charged (rows t : Ledger) (cost : ℚ) : Prop :=
  (Payable rows cost ∧
    reported t .operating = defaultContext.round (reported rows .operating - cost)) ∨
  (¬ Payable rows cost ∧ t = rows)

theorem debitCost_spec (P : Platform) (svc : CashflowService) (rows : Ledger) {cost : Decimal}
    {c : ℚ} (hc : cost.HasValue c) (rep : c ∈ defaultContext.Representable) :
    Ensures (debitCost P (some svc) cost) rows (fun _ t => Charged rows t c)
      (fun _ _ => False) := by
  apply ensures_bind
  rw [lt_hasValue hasValue_zero hc]
  apply ensures_attempt _ (by intro e h; cases h)
  intro positive decided
  cases decided
  by_cases pos : 0 < c
  · rw [if_pos (decide_eq_true pos)]
    apply ensures_swallow
    apply ensures_mono (debit_spec P svc rows .operating .costAnthropic none "" cost)
    · rintro entry _ ⟨fields, negated, _, adm, rfl⟩
      obtain ⟨x, rfl, value⟩ := neg_finite negated
      rw [(hasValue_finite x).unique hc, defaultContext.round_of_representable rep] at value
      have ofPot : (svc.row entry).pot = .operating := fields.pot
      refine .inl ⟨(admits_iff_payable pos value).mp adm, ?_⟩
      rw [append, reported_append_same rows ofPot, sub_eq_add_neg, ← value]
      rfl
    · rintro err t ⟨rfl, refused⟩
      refine .inr ⟨?_, rfl⟩
      intro payable
      obtain ⟨x, rfl, rfl⟩ := hc
      have inRange : |x.toRat| < (10 : ℚ) ^ defaultContext.emax := by
        have far : (10 : ℚ) ^ (8 : ℤ) ≤ 10 ^ defaultContext.emax := ten_zpow_le (by decide)
        have small := payable.small
        rw [abs_of_pos pos]
        norm_num at far small
        linarith
      obtain ⟨v, negated, y, rfl, value⟩ := neg_ok (hasValue_finite x) inRange
      rw [defaultContext.round_neg, defaultContext.round_of_representable rep] at value
      exact refused x y rfl pos negated ((admits_iff_payable pos value).mpr payable)
  · rw [if_neg (by simpa using pos)]
    exact ensures_pure (.inr ⟨fun payable => pos payable.positive, rfl⟩)

theorem settle_spec (P : Platform) (svc : CashflowService) (rows : Ledger) (model : ModelID)
    (content : String) (tokensIn tokensOut : ℤ) :
    Ensures (settle P (some svc) model content tokensIn tokensOut) rows
      (fun response t => response.costUsd.HasValue (costValue model tokensIn tokensOut) ∧
        Charged rows t (costValue model tokensIn tokensOut))
      (fun _ t => t = rows ∧
        ∃ signal, estimateCostUsd model tokensIn tokensOut = .error signal) := by
  apply ensures_bind
  apply ensures_attempt
  · intro cost estimated
    obtain ⟨value, small⟩ := estimate_value estimated
    apply ensures_bind
    apply ensures_mono (debitCost_spec P svc rows value (costValue_representable small)) _
      fun _ _ impossible => absurd impossible id
    intro _ t charged
    exact ensures_pure ⟨value, charged⟩
  · intro signal raised
    exact ⟨rfl, signal, raised⟩

end LlmClient
