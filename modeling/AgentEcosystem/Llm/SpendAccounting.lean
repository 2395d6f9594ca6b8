import AgentEcosystem.Cashflow.FieldCheck
import AgentEcosystem.Llm.LlmClient

/-!
Calls made one after another on a client with a ledger. The cost of a response
leaves Operating only if the ledger takes it as it is: an amount of its four
decimals, within the room above the floor.
-/
namespace LlmClient
open AgentSchemas DecimalArithmetic NearestRounding Decimal Raising CashflowLedger ModelRouter Runs

structure Invocation where
  systemState : String
  provider : Provider
  request : CallRequest

section Invocations
variable (P : Platform) (svc : CashflowService)

def invoke (rows : Ledger) (i : Invocation) : Except ClientError LLMResponse × Ledger :=
  outcome (call P (some svc) i.systemState i.provider i.request none) rows

def invokeRows (rows : Ledger) (i : Invocation) : Ledger := (invoke P svc rows i).2

def spent (rows : Ledger) (i : Invocation) : ℚ :=
  match (invoke P svc rows i).1 with
  | .ok response => valueOf response.costUsd
  | .error _ => 0

structure Answered (rows : Ledger) (i : Invocation) (admission : Admission)
    (tokensIn tokensOut : ℤ) : Prop where
  admitted : (outcome (admitCall (some svc) i.systemState i.request none) rows).1 = .ok admission
  replied : ∃ content, i.provider admission.model i.request.system i.request.user
    i.request.maxTokens = .ok (content, tokensIn, tokensOut)
  priced : ∃ cost, estimateCostUsd admission.model tokensIn tokensOut = .ok cost

/-- The ledger takes the cost and holds the balance that is left exactly. -/
structure Drawable (rows : Ledger) (cost : ℚ) : Prop where
  payable : Payable rows cost
  exact : reported rows .operating - cost ∈ defaultContext.Representable

/-- A response this call can lead to is free or costs what the ledger takes. -/
def Accounted (rows : Ledger) (i : Invocation) : Prop :=
  ∀ admission tokensIn tokensOut, Answered svc rows i admission tokensIn tokensOut →
    costValue admission.model tokensIn tokensOut = 0 ∨
      Drawable rows (costValue admission.model tokensIn tokensOut)

theorem charged_exact {rows t : Ledger} {cost : ℚ} (charged : Charged rows t cost) :
    reported t .operating = reported rows .operating - cost ↔ cost = 0 ∨ Drawable rows cost := by
  rcases charged with ⟨payable, balance⟩ | ⟨refused, rfl⟩
  · rw [balance]
    constructor
    · intro exact
      refine .inr ⟨payable, ?_⟩
      rw [← exact]
      exact defaultContext.round_mem _
    · rintro (free | drawable)
      · exact absurd free payable.positive.ne'
      · exact defaultContext.round_of_representable drawable.exact
  · constructor
    · intro same
      exact .inl (by linarith)
    · rintro (free | drawable)
      · rw [free, sub_zero]
      · exact absurd drawable.payable refused

theorem admitCall_outcome {rows : Ledger} {systemState : String} {request : CallRequest}
    {admission : Admission}
    (admitted : (outcome (admitCall (some svc) systemState request none) rows).1 = .ok admission) :
    outcome (admitCall (some svc) systemState request none) rows = (.ok admission, rows) :=
  Prod.ext admitted (admitCall_keeps svc systemState request rows)

theorem invoke_answered {rows : Ledger} {i : Invocation} {admission : Admission}
    {tokensIn tokensOut : ℤ} (h : Answered svc rows i admission tokensIn tokensOut) :
    spent P svc rows i = costValue admission.model tokensIn tokensOut ∧
      Charged rows (invokeRows P svc rows i) (costValue admission.model tokensIn tokensOut) := by
  obtain ⟨content, replied⟩ := h.replied
  obtain ⟨cost, priced⟩ := h.priced
  have unfolded : invoke P svc rows i =
      outcome (settle P (some svc) admission.model content tokensIn tokensOut) rows := by
    unfold invoke call
    rw [outcome_bind, admitCall_outcome svc h.admitted]
    dsimp only
    rw [outcome_bind, replied, outcome_attempt_ok]
  unfold spent invokeRows
  rw [unfolded]
  have settled := settle_spec P svc rows admission.model content tokensIn tokensOut
  rcases run : outcome (settle P (some svc) admission.model content tokensIn tokensOut) rows with
    ⟨err | response, t⟩
  · obtain ⟨_, signal, raised⟩ := ensures_of_raises settled run
    rw [priced] at raised
    cases raised
  · obtain ⟨value, charged⟩ := ensures_of_returns settled run
    exact ⟨valueOf_hasValue value, charged⟩

theorem invoke_unanswered {rows : Ledger} {i : Invocation}
    (unanswered : ∀ admission tokensIn tokensOut,
      ¬ Answered svc rows i admission tokensIn tokensOut) :
    spent P svc rows i = 0 ∧ invokeRows P svc rows i = rows := by
  have raises : Ensures (call P (some svc) i.systemState i.provider i.request none) rows
      (fun _ _ => False) (fun _ t => t = rows) := by
    apply ensures_bind
    apply ensures_mono ensures_outcome
    · intro admission t admitted
      have first := congrArg Prod.fst admitted
      rw [admitCall_outcome svc first] at admitted
      cases admitted
      apply ensures_bind
      apply ensures_attempt
      · rintro ⟨content, tokensIn, tokensOut⟩ replied
        apply ensures_bind
        apply ensures_attempt
        · intro cost priced
          exact absurd ⟨first, ⟨content, replied⟩, cost, priced⟩
            (unanswered admission tokensIn tokensOut)
        · intro _ _
          rfl
      · intro _ _
        rfl
    · intro err t raised
      rw [← admitCall_keeps svc i.systemState i.request rows, raised]
  unfold spent invokeRows invoke
  rcases run : outcome (call P (some svc) i.systemState i.provider i.request none) rows with
    ⟨err | response, t⟩
  · have kept := ensures_of_raises raises run
    exact ⟨rfl, kept⟩
  · exact absurd (ensures_of_returns raises run) id

theorem invoke_draws_iff (rows : Ledger) (i : Invocation) :
    reported (invokeRows P svc rows i) .operating =
      reported rows .operating - spent P svc rows i ↔ Accounted svc rows i := by
  by_cases answered : ∃ admission tokensIn tokensOut,
      Answered svc rows i admission tokensIn tokensOut
  · obtain ⟨admission, tokensIn, tokensOut, h⟩ := answered
    obtain ⟨cost, charged⟩ := invoke_answered P svc h
    rw [cost, charged_exact charged]
    constructor
    · intro paid admission' tokensIn' tokensOut' h'
      have same := h.admitted.symm.trans h'.admitted
      cases same
      obtain ⟨content, replied⟩ := h.replied
      obtain ⟨content', replied'⟩ := h'.replied
      rw [replied] at replied'
      cases replied'
      exact paid
    · intro accounted
      exact accounted admission tokensIn tokensOut h
  · have unanswered : ∀ admission tokensIn tokensOut,
        ¬ Answered svc rows i admission tokensIn tokensOut := by
      intro admission tokensIn tokensOut h
      exact answered ⟨admission, tokensIn, tokensOut, h⟩
    obtain ⟨free, kept⟩ := invoke_unanswered P svc unanswered
    rw [free, kept, sub_zero]
    constructor
    · intro _ admission tokensIn tokensOut h
      exact absurd h (unanswered admission tokensIn tokensOut)
    · intro _
      rfl

/-- At every point of a run Operating has fallen by the costs returned so far,
    exactly when every call was accounted for. -/
theorem spend_accounted_iff (rows : Ledger) (calls : List Invocation) :
    (∀ before, before <+: calls →
      reported rows .operating - reported (run (invokeRows P svc) rows before) .operating =
        total (invokeRows P svc) (spent P svc) rows before) ↔
      Meets (invokeRows P svc) (Accounted svc) rows calls := by
  have step : ∀ t i, -reported (invokeRows P svc t i) .operating =
      -reported t .operating + spent P svc t i ↔ Accounted svc t i := by
    intro t i
    rw [← invoke_draws_iff P svc t i]
    constructor <;> intro moved <;> linarith
  rw [← total_iff_meets (invokeRows P svc) (fun t => -reported t .operating) (spent P svc) step]
  constructor <;> intro moved before isPrefix <;> have here := moved before isPrefix <;> linarith

end Invocations

def operatingSeed : Ledger :=
  run (step runnablePlatform motherService) []
    [.credit .operating (.ofNat 1000) .manualTopup none ""]

def shortReply : Invocation where
  systemState := "normal"
  provider := fun _ _ _ _ => .ok ("", 123, 0)
  request := ⟨.codeBuilder, .generic, "", "", 1024, 1000⟩

/-- The response costs 0.000123, of which the ledger takes nothing. -/
theorem short_reply_unbilled :
    Reachable (step runnablePlatform motherService) [] operatingSeed ∧
    (invoke runnablePlatform motherService operatingSeed shortReply).1.isOk = true ∧
    ¬ (reported operatingSeed .operating -
        reported (run (invokeRows runnablePlatform motherService) operatingSeed [shortReply])
          .operating =
      total (invokeRows runnablePlatform motherService)
        (spent runnablePlatform motherService) operatingSeed [shortReply]) :=
  ⟨⟨_, rfl⟩, by decide +kernel, by decide +kernel⟩

end LlmClient
