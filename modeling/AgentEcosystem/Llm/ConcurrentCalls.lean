import AgentEcosystem.Cashflow.FieldCheck
import AgentEcosystem.Llm.LlmClient

/-!
Calls that share a client and its ledger. Between its start and its reply a
call holds no money back: the balance another call is admitted against still
counts what the calls in flight are about to cost.
-/
namespace LlmClient
open AgentSchemas DecimalArithmetic NearestRounding Decimal Raising CashflowLedger ModelRouter Runs

/-- A call that awaits the provider. -/
structure Flight where
  request : CallRequest
  admission : Admission

structure Session where
  rows : Ledger
  flights : List Flight

/-- What the event loop runs between two awaits. A reply that is not `ok` stands
    for a provider that raises and for a call that is cancelled. -/
inductive Turn where
  | start (systemState : String) (request : CallRequest)
  | reply (k : ℕ) (answer : Except String (String × ℤ × ℤ))

section Sessions
variable (P : Platform) (svc : CashflowService)

def finish (flight : Flight) (answer : Except String (String × ℤ × ℤ)) :
    Raising ClientError Ledger LLMResponse := do
  let (content, tokensIn, tokensOut) ← attempt .providerError answer
  settle P (some svc) flight.admission.model content tokensIn tokensOut

def turn (s : Session) : Turn → Session
  | .start systemState request =>
    match outcome (admitCall (some svc) systemState request none) s.rows with
    | (.ok admission, rows) => ⟨rows, s.flights ++ [⟨request, admission⟩]⟩
    | (.error _, rows) => ⟨rows, s.flights⟩
  | .reply k answer =>
    match s.flights[k]? with
    | none => s
    | some flight => ⟨after (finish P svc flight answer) s.rows, s.flights.eraseIdx k⟩

theorem turn_admitted {s : Session} {systemState : String} {request : CallRequest}
    {admission : Admission}
    (admitted : (outcome (admitCall (some svc) systemState request none) s.rows).1 =
      .ok admission) :
    turn P svc s (.start systemState request) = ⟨s.rows, s.flights ++ [⟨request, admission⟩]⟩ := by
  have run : outcome (admitCall (some svc) systemState request none) s.rows =
      (.ok admission, s.rows) :=
    Prod.ext admitted (admitCall_keeps svc systemState request s.rows)
  simp only [turn, run]

theorem turn_refused {s : Session} {systemState : String} {request : CallRequest}
    {err : ClientError}
    (refused : (outcome (admitCall (some svc) systemState request none) s.rows).1 = .error err) :
    turn P svc s (.start systemState request) = s := by
  have run : outcome (admitCall (some svc) systemState request none) s.rows =
      (.error err, s.rows) :=
    Prod.ext refused (admitCall_keeps svc systemState request s.rows)
  simp only [turn, run]

theorem turn_reply {s : Session} {k : ℕ} {flight : Flight} (here : s.flights[k]? = some flight)
    (answer : Except String (String × ℤ × ℤ)) :
    turn P svc s (.reply k answer) =
      ⟨after (finish P svc flight answer) s.rows, s.flights.eraseIdx k⟩ := by
  simp only [turn, here]

theorem turn_absent {s : Session} {k : ℕ} (absent : s.flights[k]? = none)
    (answer : Except String (String × ℤ × ℤ)) : turn P svc s (.reply k answer) = s := by
  simp only [turn, absent]

def WithinBounds (s : Session) : Turn → Prop
  | .reply k (.ok (_, tokensIn, tokensOut)) => ∀ flight ∈ s.flights[k]?,
      tokensIn ≤ flight.request.expectedTokensIn ∧ tokensOut ≤ flight.request.maxTokens
  | _ => True

def Flight.reserve (flight : Flight) : ℚ :=
  max (costValue flight.admission.model flight.request.expectedTokensIn
    flight.request.maxTokens) 0

def committed (flights : List Flight) : ℚ := (flights.map Flight.reserve).sum

/-- The balance, less what the calls in flight may cost, keeps the floor. -/
def KeepsFloor (rows : Ledger) (flights : List Flight) : Prop :=
  reported rows .operating < 10 ^ 24 ∧
    operatingFloor ≤ reported rows .operating - committed flights

def Covered (s : Session) : Turn → Prop
  | .start systemState request => ∀ admission,
      (outcome (admitCall (some svc) systemState request none) s.rows).1 = .ok admission →
      KeepsFloor s.rows (s.flights ++ [⟨request, admission⟩])
  | .reply _ _ => True

structure PassesFloor (rows : Ledger) (cost : Decimal) : Prop where
  room : operatingFloor ≤ defaultContext.round (reported rows .operating - valueOf cost)
  billed : ∀ msg, (outcome (debit P svc .operating cost .costAnthropic none "") rows).1 ≠
    .error (.insufficientFunds msg)

def DebitPasses (s : Session) : Turn → Prop
  | .reply k (.ok (_, tokensIn, tokensOut)) => ∀ flight ∈ s.flights[k]?, ∀ cost,
      estimateCostUsd flight.admission.model tokensIn tokensOut = .ok cost →
      (Decimal.ofNat 0).lt cost = .ok true → PassesFloor P svc s.rows cost
  | _ => True

omit P svc in
theorem reserve_nonneg (flight : Flight) : 0 ≤ flight.reserve := le_max_right _ _

omit P svc in
theorem committed_nonneg (flights : List Flight) : 0 ≤ committed flights := by
  apply List.sum_nonneg
  intro q mem
  obtain ⟨flight, _, rfl⟩ := List.mem_map.mp mem
  exact reserve_nonneg flight

omit P svc in
theorem committed_eraseIdx {flights : List Flight} {k : ℕ} {flight : Flight}
    (here : flights[k]? = some flight) :
    committed flights = flight.reserve + committed (flights.eraseIdx k) := by
  obtain ⟨inside, rfl⟩ := List.getElem?_eq_some_iff.mp here
  have perm := (List.getElem_cons_eraseIdx_perm inside).symm.map Flight.reserve
  rw [committed, perm.sum_eq, List.map_cons, List.sum_cons]
  rfl

omit P svc in
theorem cost_le_reserve {flight : Flight} {tokensIn tokensOut : ℤ}
    (within : tokensIn ≤ flight.request.expectedTokensIn ∧ tokensOut ≤ flight.request.maxTokens) :
    costValue flight.admission.model tokensIn tokensOut ≤ flight.reserve :=
  (costValue_mono _ within.1 within.2).trans (le_max_left _ _)

theorem finish_charges (rows : Ledger) (flight : Flight)
    (answer : Except String (String × ℤ × ℤ)) :
    (∃ content tokensIn tokensOut, answer = .ok (content, tokensIn, tokensOut) ∧
      Charged rows (after (finish P svc flight answer) rows)
        (costValue flight.admission.model tokensIn tokensOut)) ∨
    (after (finish P svc flight answer) rows = rows ∧
      ∀ content tokensIn tokensOut, answer = .ok (content, tokensIn, tokensOut) →
        ∃ signal, estimateCostUsd flight.admission.model tokensIn tokensOut = .error signal) := by
  apply ensures_after (Q := fun t => (∃ content tokensIn tokensOut,
    answer = .ok (content, tokensIn, tokensOut) ∧
      Charged rows t (costValue flight.admission.model tokensIn tokensOut)) ∨ (t = rows ∧
      ∀ content tokensIn tokensOut, answer = .ok (content, tokensIn, tokensOut) →
        ∃ signal, estimateCostUsd flight.admission.model tokensIn tokensOut = .error signal))
  apply ensures_bind
  apply ensures_attempt
  · rintro ⟨content, tokensIn, tokensOut⟩ answered
    apply ensures_mono (settle_spec P svc rows flight.admission.model content tokensIn tokensOut)
    · intro _ t settled
      exact .inl ⟨content, tokensIn, tokensOut, answered, settled.2⟩
    · rintro _ t ⟨kept, unpriced⟩
      refine .inr ⟨kept, ?_⟩
      intro content' tokensIn' tokensOut' same
      cases answered.symm.trans same
      exact unpriced
  · intro err raised
    refine .inr ⟨rfl, ?_⟩
    intro content tokensIn tokensOut answered
    cases raised.symm.trans answered

omit P svc in
theorem keepsFloor_eraseIdx {rows : Ledger} {flights : List Flight} {k : ℕ} {flight : Flight}
    (here : flights[k]? = some flight) (keeps : KeepsFloor rows flights) :
    KeepsFloor rows (flights.eraseIdx k) := by
  obtain ⟨small, room⟩ := keeps
  rw [committed_eraseIdx here] at room
  have held := reserve_nonneg flight
  exact ⟨small, by linarith⟩

omit P svc in
/- What a charge takes is at most what was held for it. -/
theorem charged_keepsFloor {rows t : Ledger} {flights : List Flight} {k : ℕ} {flight : Flight}
    {cost : ℚ} (here : flights[k]? = some flight) (le : cost ≤ flight.reserve)
    (charged : Charged rows t cost) (keeps : KeepsFloor rows flights) :
    KeepsFloor t (flights.eraseIdx k) := by
  rcases charged with ⟨payable, balance⟩ | ⟨_, rfl⟩
  · obtain ⟨small, room⟩ := keeps
    rw [committed_eraseIdx here] at room
    have others := committed_nonneg (flights.eraseIdx k)
    have positive := payable.positive
    have floor : (0 : ℚ) < operatingFloor := by norm_num [operatingFloor]
    have exact : reported t .operating = reported rows .operating - cost := by
      rw [balance]
      apply round_money (grid_sub (reported_grid rows .operating) payable.onGrid)
      rw [abs_lt]
      constructor <;> linarith
    constructor <;> rw [exact] <;> linarith
  · exact keepsFloor_eraseIdx here keeps

/-- Between turns: no call is in flight, or the floor is kept beside all of them. -/
def Reserved (s : Session) : Prop := s.flights = [] ∨ KeepsFloor s.rows s.flights

omit P svc in
theorem reserved_keeps {s : Session} {k : ℕ} {flight : Flight} (reserved : Reserved s)
    (here : s.flights[k]? = some flight) : KeepsFloor s.rows s.flights := by
  apply reserved.resolve_left
  intro empty
  rw [empty] at here
  cases here

theorem turn_reserved (s : Session) (a : Turn) (ok : WithinBounds s a ∧ Covered svc s a)
    (reserved : Reserved s) : Reserved (turn P svc s a) := by
  obtain ⟨within, covered⟩ := ok
  cases a with
  | start systemState request =>
    rcases admitted : (outcome (admitCall (some svc) systemState request none) s.rows).1 with
      err | admission
    · rw [turn_refused P svc admitted]
      exact reserved
    · rw [turn_admitted P svc admitted]
      exact .inr (covered admission admitted)
  | reply k answer =>
    rcases here : s.flights[k]? with _ | flight
    · rw [turn_absent P svc here]
      exact reserved
    · rw [turn_reply P svc here]
      apply Or.inr
      rcases finish_charges P svc s.rows flight answer with
        ⟨content, tokensIn, tokensOut, rfl, charged⟩ | ⟨kept, _⟩
      · exact charged_keepsFloor here (cost_le_reserve (within flight here)) charged
          (reserved_keeps reserved here)
      · dsimp only
        rw [kept]
        exact keepsFloor_eraseIdx here (reserved_keeps reserved here)

theorem passesFloor_of_room {rows : Ledger} {cost : Decimal} {c : ℚ} (has : cost.HasValue c)
    (positive : 0 < c) (rep : c ∈ defaultContext.Representable)
    (room : operatingFloor ≤ reported rows .operating - c)
    (small : reported rows .operating < 10 ^ 24) : PassesFloor P svc rows cost := by
  obtain ⟨x, rfl, rfl⟩ := has
  have far : (10 : ℚ) ^ (24 : ℤ) ≤ 10 ^ defaultContext.emax := ten_zpow_le (by decide)
  norm_num at far
  have floor : (0 : ℚ) < operatingFloor := by norm_num [operatingFloor]
  have rounded := defaultContext.rounding.le_round floor_representable room
  refine ⟨rounded, ?_⟩
  intro msg refused
  have passes := debit_passes P svc rows .operating .costAnthropic none "" positive rep
    (by rw [abs_lt]; constructor <;> linarith) (by rw [abs_lt]; constructor <;> linarith)
    (by rw [DebitAllowed, ← sub_eq_add_neg]; exact rounded)
  obtain ⟨fields, err⟩ := ensures_of_raises passes (Prod.ext refused rfl)
  cases err

theorem turn_passes (s : Session) (a : Turn) (ok : WithinBounds s a ∧ Covered svc s a)
    (reserved : Reserved s) : DebitPasses P svc s a := by
  cases a with
  | start systemState request => trivial
  | reply k answer =>
    rcases answer with err | ⟨content, tokensIn, tokensOut⟩
    · trivial
    · intro flight here cost priced positive
      obtain ⟨small, room⟩ := reserved_keeps reserved here
      rw [committed_eraseIdx here] at room
      obtain ⟨has, short⟩ := estimate_value priced
      rw [lt_hasValue hasValue_zero has] at positive
      have le := cost_le_reserve (ok.1 flight here)
      have others := committed_nonneg (s.flights.eraseIdx k)
      apply passesFloor_of_room P svc has (of_decide_eq_true (Except.ok.inj positive))
        (costValue_representable short) _ small
      linarith

/-- Calls that start only while the balance, less what the calls in flight may
    cost, keeps the floor are all debited past the floor check. -/
theorem debits_pass_when_covered (rows : Ledger) (turns : List Turn)
    (covered : Meets (turn P svc) (fun s a => WithinBounds s a ∧ Covered svc s a)
      ⟨rows, []⟩ turns) :
    Meets (turn P svc) (DebitPasses P svc) ⟨rows, []⟩ turns :=
  meets_of_invariant (turn P svc) Reserved (turn_reserved P svc) (turn_passes P svc)
    (.inl rfl) covered

def Flight.fullReply (flight : Flight) : Except String (String × ℤ × ℤ) :=
  .ok ("", flight.request.expectedTokensIn, flight.request.maxTokens)

structure Flight.Chargeable (flight : Flight) : Prop where
  priced : ∃ cost, estimateCostUsd flight.admission.model flight.request.expectedTokensIn
    flight.request.maxTokens = .ok cost
  positive : 0 < flight.reserve
  onGrid : flight.reserve ∈ Grid ((10 : ℚ) ^ (-4 : ℤ))
  small : flight.reserve < 10 ^ 8

omit P svc in
theorem chargeable_cost {flight : Flight} (h : flight.Chargeable) :
    costValue flight.admission.model flight.request.expectedTokensIn flight.request.maxTokens =
      flight.reserve := by
  have positive := h.positive
  unfold Flight.reserve at positive ⊢
  rcases max_choice (costValue flight.admission.model flight.request.expectedTokensIn
    flight.request.maxTokens) 0 with cost | zero
  · exact cost.symm
  · rw [zero] at positive
    exact absurd positive (lt_irrefl 0)

/-- Calls in flight that together may cost more than the room there is: if every
    reply uses up its estimate, one of the debits fails the floor check. -/
theorem overcommitted_fails (flights : List Flight) (rows : Ledger)
    (chargeable : ∀ flight ∈ flights, flight.Chargeable)
    (small : reported rows .operating < 10 ^ 24)
    (above : operatingFloor ≤ reported rows .operating)
    (overcommitted : reported rows .operating - committed flights < operatingFloor) :
    ¬ Meets (turn P svc) (DebitPasses P svc) ⟨rows, flights⟩
      (flights.map fun flight => .reply 0 flight.fullReply) := by
  induction flights generalizing rows with
  | nil =>
    simp only [committed, List.map_nil, List.sum_nil, sub_zero] at overcommitted
    exact absurd above (not_le.mpr overcommitted)
  | cons flight flights ih =>
    rintro ⟨now, later⟩
    have fits := chargeable flight List.mem_cons_self
    obtain ⟨cost, priced⟩ := fits.priced
    obtain ⟨has, _⟩ := estimate_value priced
    rw [chargeable_cost fits] at has
    have floor : (0 : ℚ) < operatingFloor := by norm_num [operatingFloor]
    have positive := fits.positive
    have cheap := fits.small
    have passes := (now flight rfl cost priced
      (by rw [lt_hasValue hasValue_zero has, decide_eq_true positive])).room
    rw [valueOf_hasValue has] at passes
    have exact : defaultContext.round (reported rows .operating - flight.reserve) =
        reported rows .operating - flight.reserve := by
      apply round_money (grid_sub (reported_grid rows .operating) fits.onGrid)
      rw [abs_lt]
      constructor <;> linarith
    have payable : Payable rows flight.reserve :=
      ⟨positive, fits.onGrid, cheap, passes⟩
    have charged := (finish_charges P svc rows flight flight.fullReply).resolve_right (by
      rintro ⟨_, unpriced⟩
      obtain ⟨signal, raised⟩ := unpriced _ _ _ rfl
      cases priced.symm.trans raised)
    obtain ⟨content, tokensIn, tokensOut, answered, charged⟩ := charged
    cases answered
    rw [chargeable_cost fits] at charged
    have balance : reported (after (finish P svc flight flight.fullReply) rows) .operating =
        reported rows .operating - flight.reserve := by
      rcases charged with ⟨_, moved⟩ | ⟨refused, _⟩
      · rw [← exact]
        exact moved
      · exact absurd payable refused
    rw [committed, List.map_cons, List.sum_cons] at overcommitted
    rw [turn_reply P svc rfl] at later
    rw [exact] at passes
    apply ih (after (finish P svc flight flight.fullReply) rows) _ _ _ _ later
    · intro other mem
      exact chargeable other (List.mem_cons_of_mem flight mem)
    · rw [balance]
      linarith
    · rw [balance]
      exact passes
    · rw [balance, committed]
      linarith

end Sessions

def tightSeed : Ledger :=
  run (step runnablePlatform motherService) []
    [.credit .operating (.finite ⟨false, 5001, -2⟩) .manualTopup none ""]

def smallRequest : CallRequest := ⟨.codeBuilder, .generic, "", "", 1000, 1000⟩

def smallFlight : Flight := ⟨smallRequest, ⟨.haiku45, .finite ⟨false, 6000, -6⟩⟩⟩

def overlapping : List Turn :=
  [.start "normal" smallRequest, .start "normal" smallRequest,
    .reply 0 smallFlight.fullReply, .reply 0 smallFlight.fullReply]

theorem overlapping_meets {rows : Ledger} {ok : Session → Turn → Prop}
    (admitted : (outcome (admitCall (some motherService) "normal" smallRequest none) rows).1 =
      .ok smallFlight.admission)
    (first : ok ⟨rows, []⟩ (.start "normal" smallRequest))
    (second : ok ⟨rows, [smallFlight]⟩ (.start "normal" smallRequest))
    (replies : ∀ t flights, ok ⟨t, smallFlight :: flights⟩ (.reply 0 smallFlight.fullReply)) :
    Meets (turn runnablePlatform motherService) ok ⟨rows, []⟩ overlapping := by
  refine ⟨first, ?_⟩
  rw [turn_admitted runnablePlatform motherService admitted]
  refine ⟨second, ?_⟩
  rw [turn_admitted runnablePlatform motherService admitted]
  refine ⟨replies _ _, ?_⟩
  rw [turn_reply runnablePlatform motherService rfl]
  exact ⟨replies _ _, trivial⟩

theorem fullReply_within (t : Ledger) (flights : List Flight) :
    WithinBounds ⟨t, smallFlight :: flights⟩ (.reply 0 smallFlight.fullReply) := by
  intro flight here
  cases here
  exact ⟨le_rfl, le_rfl⟩

def roomySeed : Ledger :=
  run (step runnablePlatform motherService) []
    [.credit .operating (.ofNat 1000) .manualTopup none ""]

theorem debits_pass_when_roomy :
    Meets (turn runnablePlatform motherService) (DebitPasses runnablePlatform motherService)
      ⟨roomySeed, []⟩ overlapping := by
  have admitted : (outcome (admitCall (some motherService) "normal" smallRequest none)
      roomySeed).1 = .ok smallFlight.admission := by decide +kernel
  have same : ∀ admission, (outcome (admitCall (some motherService) "normal" smallRequest none)
      roomySeed).1 = .ok admission → ⟨smallRequest, admission⟩ = smallFlight := by
    intro admission also
    cases admitted.symm.trans also
    rfl
  apply debits_pass_when_covered
  apply overlapping_meets admitted
  · refine ⟨trivial, ?_⟩
    intro admission also
    rw [same admission also]
    constructor <;> decide +kernel
  · refine ⟨trivial, ?_⟩
    intro admission also
    rw [same admission also]
    constructor <;> decide +kernel
  · intro t flights
    exact ⟨fullReply_within t flights, trivial⟩

/-- With 50.01 in Operating each call alone finds room, and both together do not. -/
theorem overlapping_debit_dropped :
    Reachable (step runnablePlatform motherService) [] tightSeed ∧
    Meets (turn runnablePlatform motherService) WithinBounds ⟨tightSeed, []⟩ overlapping ∧
    ¬ Meets (turn runnablePlatform motherService) (DebitPasses runnablePlatform motherService)
      ⟨tightSeed, []⟩ overlapping := by
  have admitted : (outcome (admitCall (some motherService) "normal" smallRequest none)
      tightSeed).1 = .ok smallFlight.admission := by decide +kernel
  refine ⟨⟨_, rfl⟩, overlapping_meets admitted trivial trivial fullReply_within, ?_⟩
  rintro ⟨_, _, later⟩
  rw [turn_admitted runnablePlatform motherService admitted,
    turn_admitted runnablePlatform motherService admitted] at later
  have chargeable : smallFlight.Chargeable :=
    ⟨⟨.finite ⟨false, 6000, -6⟩, by decide +kernel⟩, by decide +kernel, ⟨60, by decide +kernel⟩,
      by decide +kernel⟩
  apply overcommitted_fails runnablePlatform motherService [smallFlight, smallFlight] tightSeed _
    _ _ _ later
  · intro flight mem
    rcases List.mem_cons.mp mem with rfl | mem
    · exact chargeable
    · rw [List.mem_singleton.mp mem]
      exact chargeable
  all_goals decide +kernel

end LlmClient
