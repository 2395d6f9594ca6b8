import AgentEcosystem.Llm.SpendAccounting

/-!
Calls made one after another with one budget record. A call compares the record
with its estimate and never writes to it, so the record knows nothing of what
the calls before have cost.
-/
namespace LlmClient
open AgentSchemas DecimalArithmetic NearestRounding Decimal Raising CashflowLedger ModelRouter Runs

structure Account where
  rows : Ledger
  costs : ℚ

def responseCost : Except ClientError LLMResponse → ℚ
  | .ok response => valueOf response.costUsd
  | .error _ => 0

def Invocation.RepliesWithin (i : Invocation) : Prop :=
  ∀ model content tokensIn tokensOut,
    i.provider model i.request.system i.request.user i.request.maxTokens =
      .ok (content, tokensIn, tokensOut) →
    tokensIn ≤ i.request.expectedTokensIn ∧ tokensOut ≤ i.request.maxTokens

structure Capped (budget : BudgetState) (spentMtd monthly : ℚ) : Prop where
  set : ∃ m, budget.monthlyBudgetUsd = some m ∧ m.HasValue monthly
  recorded : budget.spentMtdUsd.HasValue spentMtd
  within : spentMtd ≤ monthly

section Budgets
variable (P : Platform) (cashflow : Option CashflowService) (budget : BudgetState)

def budgetedCall (s : Account) (i : Invocation) : Account :=
  let made := outcome (call P cashflow i.systemState i.provider i.request (some budget)) s.rows
  ⟨made.2, s.costs + responseCost made.1⟩

def Admitted (rows : Ledger) (i : Invocation) (admission : Admission) : Prop :=
  (outcome (admitCall cashflow i.systemState i.request (some budget)) rows).1 = .ok admission

/-- A call that is admitted finds room in the budget beside what was spent so far. -/
def FindsRoom (spentMtd monthly : ℚ) (s : Account) (i : Invocation) : Prop :=
  ∀ admission, Admitted cashflow budget s.rows i admission →
    spentMtd + s.costs + valueOf admission.estCost ≤ monthly

theorem assertBudget_capped (rows : Ledger) (operating : Decimal) {estCost : Decimal}
    {est spentMtd monthly : ℚ} (hest : estCost.HasValue est)
    (capped : Capped budget spentMtd monthly) :
    Ensures (assertBudget operating estCost (some budget)) rows
      (fun _ t => t = rows ∧ defaultContext.round (spentMtd + est) ≤ monthly)
      (fun _ _ => True) := by
  obtain ⟨m, set, hm⟩ := capped.set
  unfold assertBudget
  apply ensures_bind
  apply ensures_attempt _ (by intros; trivial)
  intro left _
  apply ensures_bind
  apply ensures_attempt _ (by intros; trivial)
  intro below _
  cases below with
  | true => exact ensures_bind (ensures_throw trivial)
  | false =>
    simp only [set]
    apply ensures_bind
    apply ensures_attempt _ (by intros; trivial)
    intro sum added
    have value := add_hasValue capped.recorded hest added
    apply ensures_bind
    rw [lt_hasValue hm value]
    apply ensures_attempt _ (by intros; trivial)
    intro exceeds decided
    cases decided
    by_cases over_budget : monthly < defaultContext.round (spentMtd + est)
    · rw [if_pos (decide_eq_true over_budget)]
      exact ensures_throw trivial
    · rw [if_neg (by simpa using over_budget)]
      exact ensures_pure ⟨rfl, not_lt.mp over_budget⟩

/- An admission carries the price of the request, which the check has passed. -/
theorem admitCall_capped (rows : Ledger) (i : Invocation) {spentMtd monthly : ℚ}
    (capped : Capped budget spentMtd monthly) :
    Ensures (admitCall cashflow i.systemState i.request (some budget)) rows
      (fun admission t => t = rows ∧
        estimateCostUsd admission.model i.request.expectedTokensIn i.request.maxTokens =
          .ok admission.estCost ∧
        defaultContext.round (spentMtd + costValue admission.model i.request.expectedTokensIn
          i.request.maxTokens) ≤ monthly)
      (fun _ _ => True) := by
  apply ensures_admitCall trivial
  apply ensures_pure
  refine ⟨trivial, ?_⟩
  intro model estCost estimated
  have value := (estimate_value estimated).1
  apply ensures_mono (assertBudget_capped budget rows _ value capped) _ fun _ _ _ => trivial
  rintro _ _ ⟨rfl, room⟩
  exact ⟨rfl, estimated, room⟩

theorem settle_cost (rows : Ledger) (model : ModelID) (content : String)
    (tokensIn tokensOut : ℤ) :
    Ensures (settle P cashflow model content tokensIn tokensOut) rows
      (fun response _ => response.costUsd.HasValue (costValue model tokensIn tokensOut))
      (fun _ _ => True) := by
  apply ensures_bind
  apply ensures_attempt _ (by intros; trivial)
  intro cost estimated
  apply ensures_bind
  apply ensures_mono ensures_outcome _ fun _ _ _ => trivial
  intro _ _ _
  exact ensures_pure (estimate_value estimated).1

theorem call_cost (rows : Ledger) (i : Invocation) :
    Ensures (call P cashflow i.systemState i.provider i.request (some budget)) rows
      (fun response _ => ∃ admission content tokensIn tokensOut,
        Admitted cashflow budget rows i admission ∧
        i.provider admission.model i.request.system i.request.user i.request.maxTokens =
          .ok (content, tokensIn, tokensOut) ∧
        response.costUsd.HasValue (costValue admission.model tokensIn tokensOut))
      (fun _ _ => True) := by
  unfold call
  apply ensures_bind
  apply ensures_mono ensures_outcome _ fun _ _ _ => trivial
  intro admission t admitted
  apply ensures_bind
  apply ensures_attempt _ (by intros; trivial)
  rintro ⟨content, tokensIn, tokensOut⟩ replied
  apply ensures_mono (settle_cost P cashflow t admission.model content tokensIn tokensOut) _
    fun _ _ _ => trivial
  intro response _ value
  exact ⟨admission, content, tokensIn, tokensOut, congrArg Prod.fst admitted, replied, value⟩

theorem admitted_estimate {rows : Ledger} {i : Invocation} {admission : Admission}
    {spentMtd monthly : ℚ} (capped : Capped budget spentMtd monthly)
    (admitted : Admitted cashflow budget rows i admission) :
    valueOf admission.estCost =
        costValue admission.model i.request.expectedTokensIn i.request.maxTokens ∧
      defaultContext.round (spentMtd + valueOf admission.estCost) ≤ monthly := by
  obtain ⟨_, priced, room⟩ :=
    ensures_of_ok (admitCall_capped cashflow budget rows i capped) admitted
  rw [valueOf_hasValue (estimate_value priced).1]
  exact ⟨rfl, room⟩

section Cap
variable {spentMtd monthly : ℚ}

theorem call_keeps_cap (capped : Capped budget spentMtd monthly) (s : Account) (i : Invocation)
    (ok : FindsRoom cashflow budget spentMtd monthly s i ∧ i.RepliesWithin)
    (kept : spentMtd + s.costs ≤ monthly) :
    spentMtd + (budgetedCall P cashflow budget s i).costs ≤ monthly := by
  obtain ⟨room, within⟩ := ok
  have cost := call_cost P cashflow budget s.rows i
  unfold budgetedCall
  rcases run : outcome (call P cashflow i.systemState i.provider i.request (some budget)) s.rows with
    ⟨err | response, t⟩
  · simpa only [responseCost, add_zero] using kept
  · obtain ⟨admission, content, tokensIn, tokensOut, admitted, replied, value⟩ :=
      ensures_of_returns cost run
    obtain ⟨inLe, outLe⟩ := within _ _ _ _ replied
    have least := costValue_mono admission.model inLe outLe
    have fits := room admission admitted
    rw [(admitted_estimate cashflow budget capped admitted).1] at fits
    simp only [responseCost, valueOf_hasValue value]
    linarith

/-- In a run whose calls find room beside what was spent before, the record's
    expenses and the costs of all responses never exceed the monthly budget. -/
theorem budget_kept_with_room (capped : Capped budget spentMtd monthly) (rows : Ledger)
    (calls : List Invocation) (replies : ∀ i ∈ calls, i.RepliesWithin)
    (room : Meets (budgetedCall P cashflow budget) (FindsRoom cashflow budget spentMtd monthly)
      ⟨rows, 0⟩ calls) :
    Throughout (budgetedCall P cashflow budget) (fun s => spentMtd + s.costs ≤ monthly)
      ⟨rows, 0⟩ calls := by
  apply throughout_of_meets _ _ (call_keeps_cap P cashflow budget capped) _
    (meets_and _ room replies)
  rw [add_zero]
  exact capped.within

theorem settle_returns (rows : Ledger) (content : String) {model : ModelID}
    {tokensIn tokensOut : ℤ} {cost : Decimal}
    (priced : estimateCostUsd model tokensIn tokensOut = .ok cost) :
    Ensures (settle P cashflow model content tokensIn tokensOut) rows
      (fun response _ => response.costUsd = cost) (fun _ _ => False) := by
  obtain ⟨value, small⟩ := estimate_value priced
  unfold settle
  apply ensures_bind
  rw [priced]
  apply ensures_attempt_ok
  apply ensures_bind
  cases cashflow with
  | none => exact ensures_pure (ensures_pure rfl)
  | some svc =>
    apply ensures_mono (debitCost_spec P svc rows value (costValue_representable small)) _
      fun _ _ impossible => impossible
    intro _ _ _
    exact ensures_pure rfl

/-- The condition on a call is exact: without room, a reply of just the announced
    tokens takes the run past the budget. -/
theorem room_iff_kept (capped : Capped budget spentMtd monthly) {s : Account} (i : Invocation)
    (kept : spentMtd + s.costs ≤ monthly) :
    FindsRoom cashflow budget spentMtd monthly s i ↔
      ∀ provider, Invocation.RepliesWithin { i with provider := provider } →
        spentMtd + (budgetedCall P cashflow budget s { i with provider := provider }).costs ≤
          monthly := by
  constructor
  · intro room provider within
    exact call_keeps_cap P cashflow budget capped s { i with provider := provider }
      ⟨room, within⟩ kept
  · intro all admission admitted
    let full : Provider := fun _ _ _ _ => .ok ("", i.request.expectedTokensIn, i.request.maxTokens)
    have within : Invocation.RepliesWithin { i with provider := full } := by
      intro _ _ _ _ replied
      cases replied
      exact ⟨le_rfl, le_rfl⟩
    have fits := all full within
    obtain ⟨unmoved, priced, _⟩ :=
      ensures_of_ok (admitCall_capped cashflow budget s.rows i capped) admitted
    have started : outcome (admitCall cashflow i.systemState i.request (some budget)) s.rows =
        (.ok admission, s.rows) := Prod.ext admitted unmoved
    have made : outcome (call P cashflow i.systemState full i.request (some budget)) s.rows =
        outcome (settle P cashflow admission.model "" i.request.expectedTokensIn
          i.request.maxTokens) s.rows := by
      unfold call
      rw [outcome_bind, started]
      rfl
    obtain ⟨response, returned, billed⟩ :=
      returns_of_ensures (settle_returns P cashflow s.rows "" priced)
    unfold budgetedCall at fits
    dsimp only at fits
    rw [made, returned, responseCost, billed] at fits
    linarith

end Cap

end Budgets

def smallBudget : BudgetState := ⟨.ofNat 1000, some (.finite ⟨false, 1, -2⟩), .ofNat 0⟩

def fullCall : Invocation where
  systemState := "normal"
  provider := fun _ _ _ _ => .ok ("", 1000, 1000)
  request := ⟨.codeBuilder, .generic, "", "", 1000, 1000⟩

theorem fullCall_within : fullCall.RepliesWithin := by
  intro _ _ _ _ replied
  cases replied
  exact ⟨le_rfl, le_rfl⟩

theorem fullCalls_within : ∀ i ∈ [fullCall, fullCall], i.RepliesWithin := by
  intro i mem
  simp only [List.mem_cons, List.not_mem_nil, or_false, or_self] at mem
  rw [mem]
  exact fullCall_within

def doubleBudget : BudgetState := ⟨.ofNat 1000, some (.finite ⟨false, 2, -2⟩), .ofNat 0⟩

theorem budget_kept_with_double :
    Throughout (budgetedCall runnablePlatform none doubleBudget) (fun s => 0 + s.costs ≤ 1 / 50)
      ⟨[], 0⟩ [fullCall, fullCall] := by
  have capped : Capped doubleBudget 0 (1 / 50) :=
    ⟨⟨_, rfl, _, rfl, by decide +kernel⟩, hasValue_zero, by norm_num⟩
  have estimate : ∀ admission, Admitted none doubleBudget [] fullCall admission →
      valueOf admission.estCost = 6 / 1000 := by
    intro admission admitted
    have computed : (outcome (admitCall none fullCall.systemState fullCall.request
        (some doubleBudget)) []).1 = .ok ⟨.haiku45, .finite ⟨false, 6000, -6⟩⟩ := by decide +kernel
    cases admitted.symm.trans computed
    decide +kernel
  have rows : (budgetedCall runnablePlatform none doubleBudget ⟨[], 0⟩ fullCall).rows = [] :=
    List.isEmpty_iff.mp (by decide +kernel)
  have costs : (budgetedCall runnablePlatform none doubleBudget ⟨[], 0⟩ fullCall).costs =
      6 / 1000 := by decide +kernel
  apply budget_kept_with_room runnablePlatform none doubleBudget capped [] _ fullCalls_within
  refine ⟨?_, ?_, trivial⟩
  · intro admission admitted
    rw [estimate admission admitted]
    norm_num
  · intro admission admitted
    rw [rows] at admitted
    rw [costs, estimate admission admitted]
    norm_num

/-- Two calls of 0.006 are admitted against a budget of 0.01. -/
theorem unrecorded_spending_exceeds :
    Capped smallBudget 0 (1 / 100) ∧ (∀ i ∈ [fullCall, fullCall], i.RepliesWithin) ∧
      ¬ Throughout (budgetedCall runnablePlatform none smallBudget)
        (fun s => 0 + s.costs ≤ 1 / 100) ⟨[], 0⟩ [fullCall, fullCall] := by
  refine ⟨⟨⟨_, rfl, _, rfl, by decide +kernel⟩, hasValue_zero, by norm_num⟩, fullCalls_within, ?_⟩
  intro kept
  exact absurd (kept [fullCall, fullCall] (List.prefix_refl _)) (by decide +kernel)

end LlmClient
