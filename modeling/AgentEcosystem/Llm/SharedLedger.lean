import AgentEcosystem.Llm.ConcurrentCalls
import AgentEcosystem.Semantics.Emissions

/-!
Model calls beside all else that uses the ledger. Calls with and without a budget share
the service with its other callers, and the state of the system may change while calls
await their replies. To the ledger a reply is one more debit, taken or refused like any.
-/
namespace LlmClient
open AgentSchemas DecimalArithmetic NearestRounding Decimal Raising CashflowLedger ModelRouter Runs

structure Loop where
  /-- What the client's getter returns. -/
  systemState : String
  rows : Ledger
  flights : List Flight

/-- What happens between two awaits. -/
inductive LoopEvent where
  | setState (systemState : String)
  | start (request : CallRequest) (budget : Option BudgetState)
  | reply (k : ℕ) (answer : Except String (String × ℤ × ℤ))
  | ledger (call : Call)

def LoopEvent.ledgerCall : LoopEvent → Option Call
  | .ledger call => some call
  | _ => none

inductive LedgerUse where
  | own (call : Call)
  | bill (flight : Flight) (cost : Decimal)

def LedgerUse.call : LedgerUse → Call
  | .own call => call
  | .bill _ cost => .debit .operating cost .costAnthropic none ""

def LedgerUse.ownCall : LedgerUse → Option Call
  | .own call => some call
  | .bill _ _ => none

def LedgerUse.flight : LedgerUse → Option Flight
  | .own _ => none
  | .bill flight _ => some flight

def priceOf (flight : Flight) (answer : Except String (String × ℤ × ℤ)) : Option Decimal :=
  match answer with
  | .error _ => none
  | .ok (_, tokensIn, tokensOut) =>
    match estimateCostUsd flight.admission.model tokensIn tokensOut with
    | .error _ => none
    | .ok cost =>
      match (Decimal.ofNat 0).lt cost with
      | .ok true => some cost
      | _ => none

section Loops
variable (P : Platform) (svc : CashflowService)

def loop (s : Loop) : LoopEvent → Loop
  | .setState systemState => { s with systemState := systemState }
  | .start request budget =>
    match outcome (admitCall (some svc) s.systemState request budget) s.rows with
    | (.ok admission, rows) => { s with rows := rows, flights := s.flights ++ [⟨request, admission⟩] }
    | (.error _, rows) => { s with rows := rows }
  | .reply k answer =>
    match s.flights[k]? with
    | none => s
    | some flight =>
      { s with rows := after (finish P svc flight answer) s.rows, flights := s.flights.eraseIdx k }
  | .ledger call => { s with rows := step P svc s.rows call }

def ledgerUses (s : Loop) : LoopEvent → List LedgerUse
  | .ledger call => [.own call]
  | .reply k answer =>
    match s.flights[k]? with
    | none => []
    | some flight => ((priceOf flight answer).map (LedgerUse.bill flight)).toList
  | _ => []

def admissions (s : Loop) : LoopEvent → List Flight
  | .start request budget =>
    match (outcome (admitCall (some svc) s.systemState request budget) s.rows).1 with
    | .ok admission => [⟨request, admission⟩]
    | .error _ => []
  | _ => []

theorem assertBudget_keeps (operating estCost : Decimal) (budget : Option BudgetState)
    (rows : Ledger) : Ensures (assertBudget operating estCost budget) rows
      (fun _ t => t = rows) (fun _ t => t = rows) := by
  apply ensures_bind
  apply ensures_attempt _ (by intros; rfl)
  intro left _
  apply ensures_bind
  apply ensures_attempt _ (by intros; rfl)
  intro below _
  dsimp only
  split
  · exact ensures_bind (ensures_throw rfl)
  · split
    · exact ensures_pure rfl
    · split
      · exact ensures_pure rfl
      · apply ensures_bind
        apply ensures_attempt _ (by intros; rfl)
        intro spent _
        apply ensures_bind
        apply ensures_attempt _ (by intros; rfl)
        intro breached _
        split
        · exact ensures_throw rfl
        · exact ensures_pure rfl

theorem operatingBalance_keeps (budget : Option BudgetState) (rows : Ledger) :
    Ensures (operatingBalance (some svc) budget) rows
      (fun _ t => t = rows) (fun _ t => t = rows) := by
  cases budget with
  | some budget => exact ensures_pure rfl
  | none =>
    apply ensures_bind
    apply ensures_relabel
    apply ensures_snapshot
    intro snap _
    exact ensures_pure rfl

theorem admission_reads (systemState : String) (request : CallRequest)
    (budget : Option BudgetState) (rows : Ledger) :
    (outcome (admitCall (some svc) systemState request budget) rows).2 = rows := by
  apply ensures_after (Q := fun t => t = rows)
  apply ensures_admitCall
  · rfl
  · apply ensures_mono (operatingBalance_keeps svc budget rows) _ fun _ _ kept => kept
    rintro operating _ rfl
    exact ⟨rfl, fun _ estCost _ => assertBudget_keeps operating estCost budget _⟩

theorem admissions_halted {s : Loop} (halted : s.systemState = "hard_stop") (event : LoopEvent) :
    admissions svc s event = [] := by
  cases event with
  | start request budget =>
    have refused : (outcome (admitCall (some svc) s.systemState request budget) s.rows).1 =
        .error (.systemHalted "system_state=HARD_STOP; refusing LLM call") := by
      rw [halted]
      rfl
    simp only [admissions, refused]
  | setState systemState => rfl
  | reply k answer => rfl
  | ledger call => rfl

theorem loop_start (s : Loop) (request : CallRequest) (budget : Option BudgetState) :
    loop P svc s (.start request budget) =
      { s with flights := s.flights ++ admissions svc s (.start request budget) } := by
  have reads := admission_reads svc s.systemState request budget s.rows
  rcases asked : outcome (admitCall (some svc) s.systemState request budget) s.rows with
    ⟨err | admission, rows⟩
  · rw [asked] at reads
    cases reads
    simp only [loop, admissions, asked, List.append_nil]
  · rw [asked] at reads
    cases reads
    simp only [loop, admissions, asked]

theorem after_debitCost (cost : Decimal) (rows : Ledger) :
    after (debitCost P (some svc) cost) rows =
      match (Decimal.ofNat 0).lt cost with
      | .ok true => step P svc rows (.debit .operating cost .costAnthropic none "")
      | _ => rows := by
  unfold debitCost
  rcases (Decimal.ofNat 0).lt cost with signal | _ | _
  · rfl
  · rfl
  · rfl

theorem after_finish (flight : Flight) (answer : Except String (String × ℤ × ℤ)) (rows : Ledger) :
    after (finish P svc flight answer) rows =
      run (step P svc) rows ((priceOf flight answer).map fun cost =>
        .debit .operating cost .costAnthropic none "").toList := by
  rcases answer with err | ⟨content, tokensIn, tokensOut⟩
  · rfl
  · have settled : after (finish P svc flight (.ok (content, tokensIn, tokensOut))) rows =
        after (settle P (some svc) flight.admission.model content tokensIn tokensOut) rows := rfl
    rw [settled, settle, priceOf]
    rcases estimateCostUsd flight.admission.model tokensIn tokensOut with signal | cost
    · rfl
    · have ignored : after (do
            let actualCost ← attempt ClientError.decimalSignal (.ok cost)
            debitCost P (some svc) actualCost
            return ⟨flight.admission.model, content, tokensIn, tokensOut, actualCost⟩ :
            Raising ClientError Ledger LLMResponse) rows =
          after (debitCost P (some svc) cost) rows :=
        after_ignored (debitCost P (some svc) cost) _ rows
      rw [ignored, after_debitCost]
      dsimp only
      rcases (Decimal.ofNat 0).lt cost with signal | _ | _
      · rfl
      · rfl
      · rfl

/- Seen from the ledger, an event is the calls it makes there. -/
theorem loop_rows (s : Loop) (event : LoopEvent) : (loop P svc s event).rows =
    run (step P svc) s.rows ((ledgerUses s event).map LedgerUse.call) := by
  cases event with
  | setState systemState => rfl
  | start request budget =>
    rw [loop_start]
    rfl
  | ledger call => rfl
  | reply k answer =>
    simp only [loop, ledgerUses]
    rcases here : s.flights[k]? with _ | flight
    · rfl
    · dsimp only
      rw [after_finish]
      cases priceOf flight answer with
      | none => rfl
      | some cost => rfl

theorem ownCalls_event (s : Loop) (event : LoopEvent) :
    (ledgerUses s event).filterMap LedgerUse.ownCall = event.ledgerCall.toList := by
  cases event with
  | setState systemState => rfl
  | start request budget => rfl
  | ledger call => rfl
  | reply k answer =>
    simp only [ledgerUses]
    rcases here : s.flights[k]? with _ | flight
    · rfl
    · dsimp only
      cases priceOf flight answer with
      | none => rfl
      | some cost => rfl

/- A call is billed when it leaves the flights, or never. -/
theorem billed_once (s : Loop) (event : LoopEvent) :
    ((ledgerUses s event).filterMap LedgerUse.flight ++ (loop P svc s event).flights).Subperm
      (s.flights ++ admissions svc s event) := by
  cases event with
  | setState systemState => exact (List.sublist_append_left s.flights []).subperm
  | start request budget =>
    rw [loop_start]
    exact List.Subperm.refl _
  | ledger call => exact (List.sublist_append_left s.flights []).subperm
  | reply k answer =>
    have idle : admissions svc s (.reply k answer) = [] := rfl
    rw [idle, List.append_nil]
    simp only [loop, ledgerUses]
    rcases here : s.flights[k]? with _ | flight
    · exact List.Subperm.refl _
    · obtain ⟨inside, rfl⟩ := List.getElem?_eq_some_iff.mp here
      have perm := (List.getElem_cons_eraseIdx_perm inside).subperm
      dsimp only
      cases priceOf s.flights[k] answer with
      | none => exact (List.sublist_cons_self s.flights[k] (s.flights.eraseIdx k)).subperm.trans perm
      | some cost => exact perm

theorem billed_price {s : Loop} {event : LoopEvent} {flight : Flight} {cost : Decimal}
    (mem : .bill flight cost ∈ ledgerUses s event) :
    ∃ k answer, event = .reply k answer ∧ priceOf flight answer = some cost := by
  cases event with
  | setState systemState => cases mem
  | start request budget => cases mem
  | ledger call => cases List.mem_singleton.mp mem
  | reply k answer =>
    refine ⟨k, answer, rfl, ?_⟩
    simp only [ledgerUses] at mem
    rcases here : s.flights[k]? with _ | flight'
    · rw [here] at mem
      cases mem
    · rw [here, Option.mem_toList, Option.map_eq_some_iff] at mem
      obtain ⟨cost', priced, same⟩ := mem
      cases same
      exact priced

section Traces
variable (s : Loop) (events : List LoopEvent)

theorem rows_trace : (run (loop P svc) s events).rows = run (step P svc) s.rows
    ((emitted (loop P svc) ledgerUses s events).map LedgerUse.call) := by
  rw [map_emitted]
  exact view_run_emitted (loop_rows P svc) s events

theorem ownCalls_trace : (emitted (loop P svc) ledgerUses s events).filterMap LedgerUse.ownCall =
    events.filterMap LoopEvent.ledgerCall := by
  rw [filterMap_emitted]
  exact emitted_stateless ownCalls_event s events

theorem billed_trace :
    ((emitted (loop P svc) ledgerUses s events).filterMap LedgerUse.flight ++
      (run (loop P svc) s events).flights).Subperm
      (s.flights ++ emitted (loop P svc) (admissions svc) s events) := by
  rw [filterMap_emitted]
  exact used_and_held (billed_once P svc) s events

/-- However model calls are interleaved with all other calls on the ledger, its rows are
    those that the service's calls alone produce: everybody's own calls in their order
    and between them debits at the price of a reply, at most one for each call that was
    in flight or is admitted, and none for a call that is in flight still. -/
theorem shared_ledger_refines (s : Loop) (events : List LoopEvent) :
    let t := run (loop P svc) s events
    let calls := emitted (loop P svc) ledgerUses s events
    t.rows = run (step P svc) s.rows (calls.map LedgerUse.call) ∧
    calls.filterMap LedgerUse.ownCall = events.filterMap LoopEvent.ledgerCall ∧
    (calls.filterMap LedgerUse.flight ++ t.flights).Subperm
      (s.flights ++ emitted (loop P svc) (admissions svc) s events) ∧
    ∀ flight cost, .bill flight cost ∈ calls →
      ∃ k answer, .reply k answer ∈ events ∧ priceOf flight answer = some cost := by
  intro t calls
  refine ⟨rows_trace P svc s events, ownCalls_trace P svc s events, billed_trace P svc s events, ?_⟩
  intro flight cost mem
  obtain ⟨before, event, later, split, billed⟩ := mem_emitted.mp mem
  obtain ⟨k, answer, rfl, priced⟩ := billed_price billed
  exact ⟨k, answer, by simp [split], priced⟩

end Traces

theorem calls_of_unbilled {calls : List LedgerUse}
    (unbilled : calls.filterMap LedgerUse.flight = []) :
    calls.map LedgerUse.call = calls.filterMap LedgerUse.ownCall := by
  induction calls with
  | nil => rfl
  | cons call calls ih =>
    cases call with
    | own own => exact congrArg (own :: ·) (ih unbilled)
    | bill flight cost => cases unbilled

theorem halted_meets {s : Loop} {events : List LoopEvent} (halted : s.systemState = "hard_stop")
    (stays : ∀ systemState, .setState systemState ∈ events → systemState = "hard_stop") :
    Meets (loop P svc) (fun s _ => s.systemState = "hard_stop") s events := by
  induction events generalizing s with
  | nil => trivial
  | cons event events ih =>
    refine ⟨halted, ih ?_ fun systemState mem => stays systemState (List.mem_cons_of_mem _ mem)⟩
    cases event with
    | setState systemState => exact stays systemState List.mem_cons_self
    | start request budget =>
      rw [loop_start]
      exact halted
    | ledger call => exact halted
    | reply k answer =>
      simp only [loop]
      split
      · exact halted
      · exact halted

/-- From a hard stop on, the client's debits are for calls that were in flight then, at
    most one for each, and while none of these has been answered the ledger is what the
    others' own calls make of it. -/
theorem hard_stop_drains {s : Loop} {events : List LoopEvent}
    (halted : s.systemState = "hard_stop")
    (stays : ∀ systemState, .setState systemState ∈ events → systemState = "hard_stop") :
    let t := run (loop P svc) s events
    let calls := emitted (loop P svc) ledgerUses s events
    (calls.filterMap LedgerUse.flight ++ t.flights).Subperm s.flights ∧
    (t.flights = s.flights →
      t.rows = run (step P svc) s.rows (events.filterMap LoopEvent.ledgerCall)) := by
  intro t calls
  have silent : emitted (loop P svc) (admissions svc) s events = [] :=
    emitted_nil (fun s event halted => admissions_halted svc halted event)
      (halted_meets P svc halted stays)
  have once := billed_trace P svc s events
  rw [silent, List.append_nil] at once
  refine ⟨once, ?_⟩
  intro unanswered
  have lengths := once.length_le
  change (calls.filterMap LedgerUse.flight ++ t.flights).length ≤ _ at lengths
  rw [List.length_append, unanswered] at lengths
  have unbilled : calls.filterMap LedgerUse.flight = [] :=
    List.length_eq_zero_iff.mp (by omega)
  have rows : t.rows = run (step P svc) s.rows (calls.map LedgerUse.call) :=
    rows_trace P svc s events
  rw [rows, ← ownCalls_trace P svc s events, calls_of_unbilled unbilled]

end Loops

theorem hard_stop_drains_one :
    let s : Loop := ⟨"hard_stop", tightSeed, [smallFlight]⟩
    let events : List LoopEvent := [.reply 0 smallFlight.fullReply, .start smallRequest none]
    let t := run (loop runnablePlatform motherService) s events
    let calls := emitted (loop runnablePlatform motherService) ledgerUses s events
    (calls.filterMap LedgerUse.flight ++ t.flights).Subperm s.flights ∧
    (t.flights = s.flights → t.rows = run (step runnablePlatform motherService) s.rows
      (events.filterMap LoopEvent.ledgerCall)) :=
  hard_stop_drains runnablePlatform motherService rfl (by simp)

end LlmClient
