import AgentEcosystem.Cashflow.FieldCheck
import AgentEcosystem.Cashflow.Writes

/-!
Runs of the service from the empty ledger. Each pot's law is stated for one
appended row and carried through the rows of a call and the calls of a run.
Deposits never lower a reported balance, so only the first row of a call has
to be judged, in the state in which the call starts.
-/
namespace CashflowLedger
open AgentSchemas DecimalArithmetic NearestRounding Raising Decimal Runs

theorem reported_deposit {row : LedgerRow} (rows : Ledger) (p : Pot) (pos : 0 < row.delta.toRat) :
    reported rows p ≤ reported (append rows row) p := by
  by_cases same : row.pot = p
  · rw [append, reported_append_same rows same]
    apply defaultContext.rounding.le_round (reported_representable rows p)
    linarith
  · rw [append, reported_append_other rows same]

theorem append_keeps_floor {rows : Ledger} {row : LedgerRow} {p : Pot} {low : ℚ}
    (guard : row.pot = p → row.delta.toRat < 0 →
      low ≤ defaultContext.round (reported rows p + row.delta.toRat))
    (adm : AdmitsRow rows row) (h : low ≤ reported rows p) :
    low ≤ reported (append rows row) p := by
  rcases lt_or_gt_of_ne adm.nonzero with neg | pos
  · by_cases same : row.pot = p
    · rw [append, reported_append_same rows same]
      exact guard same neg
    · rw [append, reported_append_other rows same]
      exact h
  · exact le_trans h (reported_deposit rows p pos)

structure Floors (rows : Ledger) : Prop where
  operating : 0 ≤ reported rows .operating
  growth : 0 ≤ reported rows .growth

theorem append_operating {rows : Ledger} {row : LedgerRow} (adm : AdmitsRow rows row)
    (same : row.pot = .operating) (neg : row.delta.toRat < 0) :
    operatingFloor ≤ defaultContext.round (reported rows .operating + row.delta.toRat) := by
  have allowed := adm.allowed neg
  rw [same] at allowed
  exact allowed

theorem append_growth {rows : Ledger} {row : LedgerRow} (adm : AdmitsRow rows row)
    (same : row.pot = .growth) (neg : row.delta.toRat < 0) :
    0 ≤ defaultContext.round (reported rows .growth + row.delta.toRat) := by
  have allowed := adm.allowed neg
  rw [same] at allowed
  exact allowed

theorem append_floors {rows : Ledger} {row : LedgerRow} (adm : AdmitsRow rows row)
    (h : Floors rows) : Floors (append rows row) := by
  constructor
  · apply append_keeps_floor _ adm h.operating
    intro same neg
    exact le_trans (by norm_num [operatingFloor]) (append_operating adm same neg)
  · exact append_keeps_floor (append_growth adm) adm h.growth

/- The operating pot starts below its hard floor, but it cannot fall back through it. -/
theorem append_ratchet {rows : Ledger} {row : LedgerRow} (adm : AdmitsRow rows row)
    (h : operatingFloor ≤ reported rows .operating) :
    operatingFloor ≤ reported (append rows row) .operating :=
  append_keeps_floor (append_operating adm) adm h

section Lift
variable (P : Platform) (svc : CashflowService)

theorem step_keeps (Inv : Ledger → Prop)
    (keep : ∀ rows row, AdmitsRow rows row → Inv rows → Inv (append rows row))
    (rows : Ledger) (call : Call) (h : Inv rows) : Inv (step P svc rows call) := by
  obtain ⟨new, eq, writes⟩ := step_writes P svc rows call
  rw [eq, ← run_appends]
  exact meets_invariant append Inv keep h writes.admitted

/-- In every state of every run Operating and Growth are not negative, and an
    Operating balance that has reached the hard floor stays above it. -/
theorem floors_and_ratchet (before later : List Call) :
    let rows := run (step P svc) [] before
    Floors rows ∧ (operatingFloor ≤ reported rows .operating →
      operatingFloor ≤ reported (run (step P svc) rows later) .operating) := by
  intro rows
  constructor
  · apply run_invariant (step P svc) Floors (step_keeps P svc Floors fun _ _ => append_floors)
    exact ⟨le_refl 0, le_refl 0⟩
  · intro reached
    let Above (t : Ledger) : Prop := operatingFloor ≤ reported t .operating
    exact run_invariant (step P svc) Above (step_keeps P svc Above fun _ _ => append_ratchet)
      reached later

end Lift

section Reserve
variable (P : Platform) (svc : CashflowService)

/- A law that deposits respect is decided by the row a call withdraws with. -/
theorem step_keeps_withdrawal (Inv : Ledger → Prop) {rows : Ledger} {call : Call}
    (deposit : ∀ rows row, 0 < row.delta.toRat → Inv rows → Inv (append rows row))
    (withdraw : ∀ row, AdmitsRow rows row → row.delta.toRat < 0 → Withdraws P call row →
      Inv (append rows row))
    (h : Inv rows) : Inv (step P svc rows call) := by
  obtain ⟨new, eq, writes⟩ := step_writes P svc rows call
  rw [eq, ← run_appends]
  cases new with
  | nil => exact h
  | cons first rest =>
    have adm := writes.admitted.1
    have start : Inv (append rows first) := by
      rcases lt_or_gt_of_ne adm.nonzero with neg | pos
      · exact withdraw first adm neg (writes.withdraws first rfl neg)
      · exact deposit rows first pos h
    exact meets_invariant append Inv (fun s row pos inv => deposit s row pos inv) start
      (meets_of_forall append fun row member _ => writes.deposits row member)

def Covered (rows : Ledger) (call : Call) : Prop :=
  ∀ x source note, firstWrite P call = some (.reserve, .finite x, source, note) →
    Admits rows .reserve x source note → 0 ≤ reported rows .reserve + x.toRat

def ReserveHeld (rows : Ledger) : Prop := 0 ≤ reported rows .reserve

instance : DecidablePred ReserveHeld :=
  fun rows => inferInstanceAs (Decidable (0 ≤ reported rows .reserve))

theorem step_covered {rows : Ledger} {call : Call} (covered : Covered P rows call)
    (h : ReserveHeld rows) : ReserveHeld (step P svc rows call) := by
  apply step_keeps_withdrawal P svc ReserveHeld _ _ h
  · intro rows row pos held
    exact le_trans held (reported_deposit rows .reserve pos)
  · intro row adm neg asked
    unfold ReserveHeld
    by_cases same : row.pot = .reserve
    · rw [append, reported_append_same rows same]
      apply defaultContext.rounding.le_round zero_representable
      apply covered row.delta row.source row.note
      · rw [asked, same]
      · exact same ▸ adm
    · rw [append, reported_append_other rows same]
      exact h

theorem verified_of_firstWrite {amount : Decimal} {dateIso signature secret : String}
    {request : Pot × Decimal × CashflowSource × String}
    (asked : firstWrite P (.emergencyTransfer amount dateIso signature secret) = some request) :
    verifyEmergencyHmac P secret amount dateIso signature = .ok true := by
  rcases verified : verifyEmergencyHmac P secret amount dateIso signature with err | _ | _
  · simp [firstWrite, verified] at asked
  · simp [firstWrite, verified] at asked
  · rfl

def ReserveMoved (rows t : Ledger) (q : ℚ) : Prop :=
  reported t .reserve = defaultContext.round (reported rows .reserve + q)

/- The converse: what the guard lets pass is written, and nothing later in the
   call puts it back. -/
theorem moved_of_entry {rows : Ledger} {x : FiniteDecimal} {source : CashflowSource}
    {refId : Option String} {note : String} {entry : CashflowEntry}
    (fields : EntryOf .reserve (.finite x) source refId note entry) :
    ReserveMoved rows (append rows (svc.row entry)) x.toRat := by
  have delta := fields.delta
  cases delta
  exact reported_append_same rows fields.pot

section Takes
variable {rows : Ledger} {x : FiniteDecimal} {source : CashflowSource} {note : String}
  {amount : Decimal} (adm : Admits rows .reserve x source note)
include adm

theorem record_takes (refId : Option String) :
    ReserveMoved rows (after (record P svc .reserve (.finite x) source refId note) rows) x.toRat := by
  apply ensures_after (Q := fun t => ReserveMoved rows t x.toRat)
  apply ensures_mono (record_spec P svc rows .reserve source refId note _)
  · rintro entry _ ⟨fields, _, rfl⟩
    exact moved_of_entry svc fields
  · rintro err t ⟨_, refused⟩
    exact absurd adm (refused x rfl)

/- Unary minus keeps the sign, so a debit that asks for less than nothing was positive. -/
theorem debit_takes (negated : amount.neg defaultContext = .ok (.finite x)) (neg : x.toRat < 0)
    (refId : Option String) :
    ReserveMoved rows (after (debit P svc .reserve amount source refId note) rows) x.toRat := by
  obtain ⟨a, rfl, value⟩ := neg_finite negated
  have pos : 0 < a.toRat := by
    by_contra low
    have kept := defaultContext.rounding.round_le zero_representable (not_lt.mp low)
    rw [value] at neg
    exact absurd neg (not_lt.mpr (neg_nonneg.mpr kept))
  apply ensures_after (Q := fun t => ReserveMoved rows t x.toRat)
  apply ensures_mono (debit_spec P svc rows .reserve source refId note _)
  · rintro entry _ ⟨fields, negated', _, _, rfl⟩
    rw [negated] at negated'
    cases negated'
    exact moved_of_entry svc fields
  · rintro err t ⟨_, refused⟩
    exact absurd adm (refused a x rfl pos negated)

end Takes

theorem transfer_takes {rows : Ledger} {x : FiniteDecimal} {amount : Decimal}
    {dateIso signature secret : String}
    (verified : verifyEmergencyHmac P secret amount dateIso signature = .ok true)
    (negated : amount.neg defaultContext = .ok (.finite x)) (neg : x.toRat < 0)
    (adm : Admits rows .reserve x .emergencyTransferReserveToOperating (emergencyNote dateIso)) :
    ReserveMoved rows (after (emergencyTransferReserveToOperating P svc amount dateIso signature
      secret) rows) x.toRat := by
  have taken : ∀ out, Took P rows amount dateIso signature secret out →
      ReserveMoved rows (append rows (svc.row out)) x.toRat := by
    intro out took
    have same := negated.symm.trans took.negated
    cases same
    exact moved_of_entry svc took.fields
  apply ensures_after (Q := fun t => ReserveMoved rows t x.toRat)
  apply ensures_mono (emergencyTransfer_spec P svc rows amount dateIso signature secret)
  · rintro entries _ ⟨took, fields, _, rfl⟩
    have other : (svc.row entries.2).pot ≠ .reserve := by simp [CashflowService.row, fields.pot]
    exact (reported_append_other _ other).trans (taken _ took)
  · rintro err t (⟨_, refused⟩ | ⟨out, took, rfl, _⟩)
    · exact absurd adm (refused x verified negated neg)
    · exact taken out took

theorem step_takes {rows : Ledger} {call : Call} {x : FiniteDecimal} {source : CashflowSource}
    {note : String} (asked : firstWrite P call = some (.reserve, .finite x, source, note))
    (adm : Admits rows .reserve x source note) (neg : x.toRat < 0) :
    ReserveMoved rows (step P svc rows call) x.toRat := by
  cases call with
  | record pot delta source refId note =>
    cases asked
    exact record_takes P svc adm refId
  | debit pot amount source refId note =>
    rcases negated : amount.neg defaultContext with signal | delta
    · simp [firstWrite, negated, Except.toOption] at asked
    · simp only [firstWrite, negated, Except.toOption, Option.map_some] at asked
      cases asked
      exact debit_takes P svc adm negated neg refId
  | credit => cases asked
  | splitAndRecordInflow => cases asked
  | emergencyTransfer amount dateIso signature secret =>
    have verified := verified_of_firstWrite P asked
    rcases negated : amount.neg defaultContext with signal | delta
    · simp [firstWrite, verified, negated, Except.toOption] at asked
    · simp only [firstWrite, verified, negated, Except.toOption, Option.map_some] at asked
      cases asked
      exact transfer_takes P svc verified negated neg adm

theorem step_held_iff {rows : Ledger} (call : Call) (h : ReserveHeld rows) :
    ReserveHeld (step P svc rows call) ↔ Covered P rows call := by
  constructor
  · intro held x source note asked adm
    by_contra short
    have below := not_le.mp short
    have start : 0 ≤ reported rows .reserve := h
    have taken : reported (step P svc rows call) .reserve = _ :=
      step_takes P svc asked adm (by linarith)
    have onGrid := grid_add (reported_grid rows .reserve) (field_grid adm.fits)
    have lost := defaultContext.round_neg_of_grid (by decide) onGrid below
    have kept : 0 ≤ reported (step P svc rows call) .reserve := held
    linarith
  · exact fun covered => step_covered P svc covered h

/-- Reserve is non-negative in every state of a run exactly when no call of the
    run takes more than Reserve has. -/
theorem reserve_held_iff (calls : List Call) :
    Throughout (step P svc) ReserveHeld [] calls ↔ Meets (step P svc) (Covered P) [] calls :=
  throughout_iff_meets (step P svc) ReserveHeld (fun _ call h => step_held_iff P svc call h)
    (le_refl 0) calls

/-- A correctly signed transfer overdraws an empty Reserve. -/
theorem reserve_overdrawn : ¬ Throughout (step runnablePlatform motherService) ReserveHeld []
    [.emergencyTransfer (.ofNat 100) "2026-04-18" testDigest "test-secret"] := by
  intro held
  exact absurd (held _ (List.prefix_refl _)) (by decide +kernel)

def SignedWithdrawal (call : Call) (rows t : Ledger) : Prop :=
  ∃ amount dateIso signature secret row rest,
    call = .emergencyTransfer amount dateIso signature secret ∧
    verifyEmergencyHmac P secret amount dateIso signature = .ok true ∧
    row.pot = .reserve ∧ amount.HasValue (-row.delta.toRat) ∧
    t = rows ++ row :: rest ∧ ∀ other ∈ rest, 0 < other.delta.toRat

/-- No record and no debit that the guard and the schema let pass takes from
    Reserve, and the amount of a transfer survives unary minus unrounded. -/
def SignedOnly (rows : Ledger) (call : Call) : Prop :=
  ∀ x source note, firstWrite P call = some (.reserve, .finite x, source, note) →
    Admits rows .reserve x source note → x.toRat < 0 →
    match call with
    | .emergencyTransfer amount _ _ _ => amount.HasValue (-x.toRat)
    | _ => False

def Inviolate (rows : Ledger) (call : Call) : Prop :=
  reported (step P svc rows call) .reserve < reported rows .reserve →
    SignedWithdrawal P call rows (step P svc rows call)

theorem deposits_keep (rows : Ledger) {new : List LedgerRow}
    (pos : ∀ row ∈ new, 0 < row.delta.toRat) :
    reported rows .reserve ≤ reported (rows ++ new) .reserve := by
  let Above (t : Ledger) : Prop := reported rows .reserve ≤ reported t .reserve
  have deposits : Meets append (fun _ row => 0 < row.delta.toRat) rows new :=
    meets_of_forall append fun row member _ => pos row member
  rw [← run_appends]
  exact meets_invariant append Above
    (fun t row pos above => le_trans above (reported_deposit t .reserve pos)) (le_refl _) deposits

theorem step_inviolate {rows : Ledger} {call : Call} (signed : SignedOnly P rows call) :
    Inviolate P svc rows call := by
  intro lowered
  obtain ⟨new, eq, writes⟩ := step_writes P svc rows call
  rw [eq] at lowered ⊢
  cases new with
  | nil => simp at lowered
  | cons first rest =>
    have adm := writes.admitted.1
    have later := deposits_keep (append rows first) writes.deposits
    rw [append, List.append_assoc, List.singleton_append] at later
    -- the loss comes from the first row, so that row is negative and Reserve's
    have lost : reported (append rows first) .reserve < reported rows .reserve :=
      lt_of_le_of_lt later lowered
    have neg : first.delta.toRat < 0 := by
      rcases lt_or_gt_of_ne adm.nonzero with neg | pos
      · exact neg
      · exact absurd (reported_deposit rows .reserve pos) (not_le.mpr lost)
    have ofReserve : first.pot = .reserve := by
      by_contra other
      rw [append, reported_append_other rows other] at lost
      exact lt_irrefl _ lost
    have asked := writes.withdraws first rfl neg
    rw [Withdraws, ofReserve] at asked
    have allowed := signed _ _ _ asked (ofReserve ▸ adm) neg
    cases call with
    | emergencyTransfer amount dateIso signature secret =>
      exact ⟨amount, dateIso, signature, secret, first, rest, rfl, verified_of_firstWrite P asked,
        ofReserve, allowed, rfl, writes.deposits⟩
    | record => exact absurd allowed id
    | debit => exact absurd allowed id
    | credit => exact absurd allowed id
    | splitAndRecordInflow => exact absurd allowed id

/-- Along a run whose calls name the emergency source only in signed transfers,
    every loss of Reserve is one of those transfers, for the amount signed. -/
theorem reserve_inviolate (calls : List Call)
    (signed : Meets (step P svc) (SignedOnly P) [] calls) :
    Meets (step P svc) (Inviolate P svc) [] calls :=
  meets_mono (step P svc) (fun _ _ => step_inviolate P svc) signed

theorem reserve_inviolate_transfer : Meets (step runnablePlatform motherService)
    (Inviolate runnablePlatform motherService) []
    [.credit .reserve (.ofNat 500) .manualTopup none "",
      .emergencyTransfer (.ofNat 100) "2026-04-18" testDigest "test-secret"] := by
  apply reserve_inviolate
  constructor
  · intro x source note asked
    cases asked
  · constructor
    · intro x source note asked _ _
      have request : firstWrite runnablePlatform
          (.emergencyTransfer (.ofNat 100) "2026-04-18" testDigest "test-secret") =
          some (.reserve, .finite ⟨true, 100, 0⟩, .emergencyTransferReserveToOperating,
            emergencyNote "2026-04-18") := by decide +kernel
      rw [request] at asked
      cases asked
      exact ⟨.ofNat 100, rfl, by decide +kernel⟩
    · trivial

/-- A plain record under the emergency source takes from Reserve unsigned. -/
theorem reserve_taken_unsigned : ¬ Meets (step runnablePlatform motherService)
    (Inviolate runnablePlatform motherService) []
    [.credit .reserve (.ofNat 100) .manualTopup none "",
      .record .reserve (.finite ⟨true, 40, 0⟩) .emergencyTransferReserveToOperating none ""] := by
  rintro ⟨_, inviolate, _⟩
  obtain ⟨_, _, _, _, _, _, transfer, _⟩ := inviolate (by decide +kernel)
  cases transfer

end Reserve

end CashflowLedger
