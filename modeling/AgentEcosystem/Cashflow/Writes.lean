import AgentEcosystem.Cashflow.Balances
import AgentEcosystem.Semantics.Runs

/-!
What each call of the service writes. A call is a run of one simpler machine,
which only appends rows the guard and the schema admit; at most the first row
of a call takes money out of a pot, and then the call itself asked for it.
-/
namespace CashflowLedger
open AgentSchemas DecimalArithmetic NearestRounding Raising Decimal Runs

/-- The condition under which `record` writes. -/
structure Admits (rows : Ledger) (pot : Pot) (x : FiniteDecimal) (source : CashflowSource)
    (note : String) : Prop where
  nonzero : x.toRat ≠ 0
  allowed : x.toRat < 0 → DebitAllowed rows pot x.toRat source
  fits : FitsField deltaMaxDigits deltaDecimalPlaces x
  note_fits : note.length ≤ noteMaxLength

structure EntryOf (pot : Pot) (delta : Decimal) (source : CashflowSource)
    (refId : Option String) (note : String) (entry : CashflowEntry) : Prop where
  pot : entry.pot = pot
  delta : delta = .finite entry.delta
  source : entry.source = source
  refId : entry.refId = refId
  note : entry.note = note

def append (rows : Ledger) (row : LedgerRow) : Ledger := rows ++ [row]

def CashflowService.row (svc : CashflowService) (entry : CashflowEntry) : LedgerRow :=
  { entry with writtenBy := svc.tier }

theorem validate_ok {P : Platform} {pot : Pot} {delta : Decimal} {source : CashflowSource}
    {refId : Option String} {note : String} {entry : CashflowEntry}
    (h : CashflowEntry.validate P pot delta source refId note = .ok entry) :
    EntryOf pot delta source refId note entry := by
  unfold CashflowEntry.validate at h
  rcases delta with x | sign | _
  · dsimp only at h
    split at h
    · split at h
      · cases h
        exact ⟨rfl, rfl, rfl, rfl, rfl⟩
      · cases h
    · cases h
  · cases h
  · cases h

theorem validate_error {P : Platform} {pot : Pot} {x : FiniteDecimal} {source : CashflowSource}
    {refId : Option String} {note : String} {err : LedgerError}
    (h : CashflowEntry.validate P pot (.finite x) source refId note = .error err)
    (fits : FitsField deltaMaxDigits deltaDecimalPlaces x) : noteMaxLength < note.length := by
  have accepted : P.acceptsDecimal deltaMaxDigits deltaDecimalPlaces (.finite x) = true :=
    (P.acceptsDecimal_iff _ _ _).mpr ⟨x, rfl, fits⟩
  unfold CashflowEntry.validate at h
  dsimp only at h
  rw [dif_pos accepted] at h
  split at h
  · cases h
  · omega

theorem validate_rejects {P : Platform} {pot : Pot} {delta : Decimal} {source : CashflowSource}
    {refId : Option String} {note : String} {err : LedgerError}
    (h : CashflowEntry.validate P pot delta source refId note = .error err) :
    ∃ fields, err = .validationError fields := by
  unfold CashflowEntry.validate at h
  rcases delta with x | sign | _
  · dsimp only at h
    split at h
    · split at h
      · cases h
      · cases h
        exact ⟨_, rfl⟩
    · cases h
      exact ⟨_, rfl⟩
  · cases h
    exact ⟨_, rfl⟩
  · cases h
    exact ⟨_, rfl⟩

theorem ensures_test (rows : Ledger) {α : Type} {amount : Decimal} {test : Except Signal Bool}
    {p : FiniteDecimal → Prop} [DecidablePred p]
    (decides : ∀ x, amount = .finite x → test = .ok (decide (p x)))
    {body : Bool → Raising LedgerError Ledger α} {returns : α → Ledger → Prop}
    {raises : LedgerError → Ledger → Prop}
    (yes : (∀ x, amount = .finite x → p x) → Ensures (body true) rows returns raises)
    (no : (∀ x, amount = .finite x → ¬ p x) → Ensures (body false) rows returns raises)
    (raised : (∀ x, amount ≠ .finite x) → ∀ signal, raises (.decimalSignal signal) rows) :
    Ensures (attempt .decimalSignal test >>= body) rows returns raises := by
  apply ensures_bind
  apply ensures_attempt
  · intro answer tested
    have same : ∀ x, amount = .finite x → decide (p x) = answer := by
      intro x eq
      exact Except.ok.inj ((decides x eq).symm.trans tested)
    cases answer with
    | true => exact yes fun x eq => of_decide_eq_true (same x eq)
    | false => exact no fun x eq => of_decide_eq_false (same x eq)
  · intro signal failed
    apply raised
    intro x eq
    rw [decides x eq] at failed
    cases failed

theorem decides_zero (amount : Decimal) : ∀ x, amount = .finite x →
    amount.eq (.ofNat 0) = .ok (decide (x.toRat = 0)) := by
  rintro x rfl
  exact eq_hasValue (hasValue_finite x) hasValue_zero

theorem decides_negative (amount : Decimal) : ∀ x, amount = .finite x →
    amount.lt (.ofNat 0) = .ok (decide (x.toRat < 0)) := by
  rintro x rfl
  exact lt_hasValue (hasValue_finite x) hasValue_zero

theorem decides_notPositive (amount : Decimal) : ∀ x, amount = .finite x →
    amount.le (.ofNat 0) = .ok (decide (x.toRat ≤ 0)) := by
  rintro x rfl
  exact le_hasValue (hasValue_finite x) hasValue_zero

section Specs
variable (P : Platform) (svc : CashflowService) (rows : Ledger) (pot : Pot)
  (source : CashflowSource) (refId : Option String) (note : String)

/-- What `record` promises to its callers: a row is written exactly when it is
    admitted, and a refused one leaves the ledger alone. -/
def Recorded (delta : Decimal) (x : Raising LedgerError Ledger CashflowEntry) : Prop :=
  Ensures x rows
    (fun entry t => EntryOf pot delta source refId note entry ∧
      Admits rows pot entry.delta source note ∧ t = append rows (svc.row entry))
    (fun _ t => t = rows ∧ ∀ x, delta = .finite x → ¬ Admits rows pot x source note)

theorem write_recorded {delta : Decimal} (nonzero : ∀ x, delta = .finite x → x.toRat ≠ 0)
    (allowed : ∀ x, delta = .finite x → x.toRat < 0 → DebitAllowed rows pot x.toRat source) :
    Recorded svc rows pot source refId note delta (do
      let entry ← attempt id (CashflowEntry.validate P pot delta source refId note)
      modify fun rows => rows ++ [svc.row entry]
      return entry) := by
  refine ensures_bind (ensures_attempt ?_ ?_)
  · intro entry validated
    have fields := validate_ok validated
    refine ensures_bind (ensures_modify (ensures_pure ⟨fields, ?_, rfl⟩))
    exact ⟨nonzero _ fields.delta, allowed _ fields.delta, entry.delta_fits,
      fields.note ▸ entry.note_fits⟩
  · intro err rejected
    refine ⟨rfl, ?_⟩
    rintro x rfl adm
    exact absurd adm.note_fits (not_le.mpr (validate_error rejected adm.fits))

theorem record_spec (delta : Decimal) : Recorded svc rows pot source refId note delta
    (record P svc pot delta source refId note) := by
  apply ensures_test rows (decides_zero delta)
  · intro zero
    apply ensures_bind
    exact ensures_throw ⟨rfl, fun x eq adm => adm.nonzero (zero x eq)⟩
  · intro nonzero
    apply ensures_test rows (decides_negative delta)
    · intro negative
      apply ensures_bind
      apply ensures_mono (assertDebitAllowed_spec rows pot delta source)
      · rintro _ _ ⟨rfl, allowed⟩
        apply write_recorded P svc _ pot source refId note nonzero
        rintro x rfl _
        exact allowed _ (hasValue_finite x)
      · rintro err _ ⟨rfl, refused⟩
        refine ⟨rfl, ?_⟩
        intro x eq adm
        exact refused x eq (reported_add_small _ pot adm.fits) (adm.allowed (negative x eq))
    · intro positive
      apply write_recorded P svc rows pot source refId note nonzero
      intro x eq negative
      exact absurd negative (positive x eq)
    · intro special signal
      exact ⟨rfl, fun x eq => absurd eq (special x)⟩
  · intro special signal
    exact ⟨rfl, fun x eq => absurd eq (special x)⟩

theorem neg_finite {d : Decimal} {y : FiniteDecimal}
    (h : d.neg defaultContext = .ok (.finite y)) :
    ∃ x, d = .finite x ∧ y.toRat = -defaultContext.round x.toRat := by
  rcases d with x | sign | ⟨signaling, sign, payload⟩
  · obtain ⟨z, eq, value⟩ := neg_hasValue (hasValue_finite x) h
    cases eq
    exact ⟨x, rfl, by rw [value, defaultContext.round_neg]⟩
  · cases h
  · cases signaling <;> cases h

theorem credit_spec (amountUsd : Decimal) :
    Ensures (credit P svc pot amountUsd source refId note) rows
      (fun entry t => EntryOf pot amountUsd source refId note entry ∧ 0 < entry.delta.toRat ∧
        Admits rows pot entry.delta source note ∧ t = append rows (svc.row entry))
      (fun _ t => t = rows ∧ ∀ x, amountUsd = .finite x → 0 < x.toRat →
        ¬ Admits rows pot x source note) := by
  apply ensures_test rows (decides_notPositive amountUsd)
  · intro notPositive
    apply ensures_bind
    exact ensures_throw ⟨rfl, fun x eq pos _ => absurd (notPositive x eq) (not_le.mpr pos)⟩
  · intro positive
    apply ensures_mono (record_spec P svc rows pot source refId note amountUsd)
    · rintro entry t ⟨fields, adm, written⟩
      exact ⟨fields, not_le.mp (positive _ fields.delta), adm, written⟩
    · rintro err t ⟨kept, refused⟩
      exact ⟨kept, fun x eq _ => refused x eq⟩
  · intro special signal
    exact ⟨rfl, fun x eq => absurd eq (special x)⟩

theorem debit_spec (amountUsd : Decimal) :
    Ensures (debit P svc pot amountUsd source refId note) rows
      (fun entry t => EntryOf pot (.finite entry.delta) source refId note entry ∧
        amountUsd.neg defaultContext = .ok (.finite entry.delta) ∧ entry.delta.toRat < 0 ∧
        Admits rows pot entry.delta source note ∧ t = append rows (svc.row entry))
      (fun _ t => t = rows ∧ ∀ x y, amountUsd = .finite x → 0 < x.toRat →
        amountUsd.neg defaultContext = .ok (.finite y) → ¬ Admits rows pot y source note) := by
  apply ensures_test rows (decides_notPositive amountUsd)
  · intro notPositive
    apply ensures_bind
    refine ensures_throw ⟨rfl, ?_⟩
    intro x _ eq pos _ _
    exact absurd (notPositive x eq) (not_le.mpr pos)
  · intro positive
    apply ensures_bind
    apply ensures_attempt
    · intro delta negated
      apply ensures_mono (record_spec P svc rows pot source refId note delta)
      · rintro entry t ⟨fields, adm, written⟩
        have finite := fields.delta
        subst finite
        obtain ⟨x, eq, value⟩ := neg_finite negated
        -- rounding keeps the sign of the amount
        have pos : 0 < x.toRat := not_le.mp (positive x eq)
        have keeps := defaultContext.round_mono pos.le
        rw [defaultContext.round_of_representable zero_representable] at keeps
        refine ⟨fields, negated, lt_of_le_of_ne ?_ adm.nonzero, adm, written⟩
        rw [value]
        linarith
      · rintro err t ⟨kept, refused⟩
        refine ⟨kept, ?_⟩
        intro x y _ _ negated'
        rw [negated] at negated'
        cases negated'
        exact refused y rfl
    · intro signal raised
      refine ⟨rfl, ?_⟩
      intro x y _ _ negated
      rw [raised] at negated
      cases negated
  · intro special signal
    exact ⟨rfl, fun x _ eq => absurd eq (special x)⟩

/- A debit the guard allows can only be refused by the schema. -/
theorem debit_passes {x : FiniteDecimal} (pos : 0 < x.toRat)
    (rep : x.toRat ∈ defaultContext.Representable)
    (size : |x.toRat| < (10 : ℚ) ^ defaultContext.emax)
    (small : |reported rows pot - x.toRat| < (10 : ℚ) ^ defaultContext.emax)
    (allowed : DebitAllowed rows pot (-x.toRat) source) :
    Ensures (debit P svc pot (.finite x) source refId note) rows (fun _ _ => True)
      (fun err _ => ∃ fields, err = .validationError fields) := by
  obtain ⟨v, negated, y, rfl, value⟩ := neg_ok (hasValue_finite x) size
  rw [defaultContext.round_neg, defaultContext.round_of_representable rep] at value
  have negative : y.toRat < 0 := by linarith
  apply ensures_bind
  rw [le_hasValue (hasValue_finite x) hasValue_zero, decide_eq_false (not_le.mpr pos)]
  apply ensures_pure
  apply ensures_bind
  rw [negated]
  apply ensures_pure
  apply ensures_bind
  rw [eq_hasValue (hasValue_finite y) hasValue_zero, decide_eq_false negative.ne]
  apply ensures_pure
  apply ensures_bind
  rw [lt_hasValue (hasValue_finite y) hasValue_zero, decide_eq_true negative]
  apply ensures_pure
  apply ensures_bind
  apply ensures_mono (assertDebitAllowed_spec rows pot (.finite y) source)
  · intro _ t _
    apply ensures_bind
    apply ensures_attempt
    · intro entry _
      exact ensures_bind (ensures_modify (ensures_pure trivial))
    · intro err rejected
      exact validate_rejects rejected
  · rintro err t ⟨_, refused⟩
    rw [sub_eq_add_neg, ← value] at small
    rw [← value] at allowed
    exact absurd allowed (refused y rfl small)

theorem hasValue_positive {amount : Decimal}
    (positive : ∀ x, amount = .finite x → ¬ x.toRat ≤ 0) {q : ℚ} (value : amount.HasValue q) :
    0 < q := by
  obtain ⟨x, eq, rfl⟩ := value
  exact not_le.mp (positive x eq)

structure Took (amountUsd : Decimal) (dateIso signature operatorSecret : String)
    (out : CashflowEntry) : Prop where
  verified : verifyEmergencyHmac P operatorSecret amountUsd dateIso signature = .ok true
  positive : ∀ q, amountUsd.HasValue q → 0 < q
  negated : amountUsd.neg defaultContext = .ok (.finite out.delta)
  fields : EntryOf .reserve (.finite out.delta) .emergencyTransferReserveToOperating none
    (emergencyNote dateIso) out
  admitted : Admits rows .reserve out.delta .emergencyTransferReserveToOperating
    (emergencyNote dateIso)

/- A transfer that raises has either written nothing or taken from Reserve
   without paying into Operating. -/
theorem emergencyTransfer_spec (amountUsd : Decimal) (dateIso signature operatorSecret : String) :
    Ensures (emergencyTransferReserveToOperating P svc amountUsd dateIso signature operatorSecret)
      rows
      (fun entries t => Took P rows amountUsd dateIso signature operatorSecret entries.1 ∧
        EntryOf .operating amountUsd .emergencyTransferReserveToOperating none
          (emergencyNote dateIso) entries.2 ∧
        Admits (append rows (svc.row entries.1)) .operating entries.2.delta
          .emergencyTransferReserveToOperating (emergencyNote dateIso) ∧
        t = append (append rows (svc.row entries.1)) (svc.row entries.2))
      (fun _ t =>
        (t = rows ∧ ∀ x, verifyEmergencyHmac P operatorSecret amountUsd dateIso signature = .ok true →
          amountUsd.neg defaultContext = .ok (.finite x) → x.toRat < 0 →
          ¬ Admits rows .reserve x .emergencyTransferReserveToOperating (emergencyNote dateIso)) ∨
        ∃ out, Took P rows amountUsd dateIso signature operatorSecret out ∧
          t = append rows (svc.row out) ∧ ∀ x, amountUsd = .finite x →
            ¬ Admits t .operating x .emergencyTransferReserveToOperating
              (emergencyNote dateIso)) := by
  apply ensures_bind
  apply ensures_attempt
  · intro accepted verified
    cases accepted with
    | false =>
      apply ensures_bind
      refine ensures_throw (.inl ⟨rfl, ?_⟩)
      intro x accepts
      rw [verified] at accepts
      cases accepts
    | true =>
      apply ensures_test rows (decides_notPositive amountUsd)
      · intro notPositive
        apply ensures_bind
        refine ensures_throw (.inl ⟨rfl, ?_⟩)
        intro x _ negated neg
        obtain ⟨a, eq, value⟩ := neg_finite negated
        have kept := defaultContext.rounding.round_le zero_representable (notPositive a eq)
        exact absurd neg (not_lt.mpr (by rw [value]; exact neg_nonneg.mpr kept))
      · intro positive
        apply ensures_bind
        apply ensures_attempt
        · intro delta negated
          apply ensures_bind
          apply ensures_mono (record_spec P svc rows .reserve _ none _ delta)
          · rintro out _ ⟨fields, adm, rfl⟩
            have eq := fields.delta
            subst eq
            have took : Took P rows amountUsd dateIso signature operatorSecret out :=
              ⟨verified, fun _ => hasValue_positive positive, negated, fields, adm⟩
            apply ensures_bind
            apply ensures_mono (record_spec P svc _ .operating _ none _ amountUsd)
            · rintro inn _ ⟨fields', adm', rfl⟩
              exact ensures_pure ⟨took, fields', adm', rfl⟩
            · rintro err _ ⟨rfl, refused⟩
              exact .inr ⟨out, took, rfl, refused⟩
          · rintro err _ ⟨rfl, refused⟩
            refine .inl ⟨rfl, ?_⟩
            intro x _ negated' _
            rw [negated] at negated'
            cases negated'
            exact refused x rfl
        · intro signal raised
          refine .inl ⟨rfl, ?_⟩
          intro x _ negated
          rw [raised] at negated
          cases negated
      · intro special signal
        refine .inl ⟨rfl, ?_⟩
        intro x _ negated
        obtain ⟨a, eq, _⟩ := neg_finite negated
        exact absurd eq (special a)
  · intro err raised
    refine .inl ⟨rfl, ?_⟩
    intro x accepts
    rw [raised] at accepts
    cases accepts

end Specs

/-- The pot, delta, source and note of the first write a call attempts, for the
    calls whose first write may take money out. -/
def firstWrite (P : Platform) : Call → Option (Pot × Decimal × CashflowSource × String)
  | .record pot delta source _ note => some (pot, delta, source, note)
  | .debit pot amount source _ note =>
      (amount.neg defaultContext).toOption.map (pot, ·, source, note)
  | .credit .. => none
  | .splitAndRecordInflow .. => none
  | .emergencyTransfer amount dateIso signature secret =>
      match verifyEmergencyHmac P secret amount dateIso signature with
      | .ok true => (amount.neg defaultContext).toOption.map
          (.reserve, ·, .emergencyTransferReserveToOperating, emergencyNote dateIso)
      | _ => none

def Withdraws (P : Platform) (call : Call) (row : LedgerRow) : Prop :=
  firstWrite P call = some (row.pot, .finite row.delta, row.source, row.note)

def AdmitsRow (rows : Ledger) (row : LedgerRow) : Prop :=
  Admits rows row.pot row.delta row.source row.note

/-- The rows a call may write: admitted one after another, and none but the
    first takes money out. -/
structure Writes (P : Platform) (call : Call) (rows : Ledger) (new : List LedgerRow) : Prop where
  admitted : Meets append AdmitsRow rows new
  withdraws : ∀ row ∈ new.head?, row.delta.toRat < 0 → Withdraws P call row
  deposits : ∀ row ∈ new.tail, 0 < row.delta.toRat

def WritesTo (P : Platform) (call : Call) (rows t : Ledger) : Prop :=
  ∃ new, t = rows ++ new ∧ Writes P call rows new

theorem run_appends (rows new : List LedgerRow) : run append rows new = rows ++ new := by
  induction new generalizing rows with
  | nil => simp
  | cons row new ih =>
    rw [run_cons, ih, append, List.append_assoc]
    rfl

section Chains
variable {P : Platform} {call : Call} {rows t : Ledger} {row : LedgerRow}

theorem writes_none : WritesTo P call rows rows :=
  ⟨[], by simp, ⟨trivial, by simp, by simp⟩⟩

theorem writes_first (adm : AdmitsRow rows row)
    (withdraws : row.delta.toRat < 0 → Withdraws P call row) :
    WritesTo P call rows (append rows row) := by
  refine ⟨[row], rfl, ⟨⟨adm, trivial⟩, ?_, by simp⟩⟩
  intro first is_first
  cases is_first
  exact withdraws

theorem writes_deposit (h : WritesTo P call rows t) (adm : AdmitsRow t row)
    (pos : 0 < row.delta.toRat) : WritesTo P call rows (append t row) := by
  obtain ⟨new, rfl, writes⟩ := h
  refine ⟨new ++ [row], by simp [append], ?_, ?_, ?_⟩
  · rw [meets_append, run_appends]
    exact ⟨writes.admitted, adm, trivial⟩
  · cases new with
    | nil =>
      intro first is_first neg
      cases is_first
      exact absurd neg (not_lt.mpr pos.le)
    | cons first rest => exact writes.withdraws
  · cases new with
    | nil => simp
    | cons first rest =>
      intro other member
      rcases List.mem_append.mp member with old | last
      · exact writes.deposits other old
      · rw [List.mem_singleton.mp last]
        exact pos

end Chains

section Calls
variable (P : Platform) (svc : CashflowService) {rows : Ledger}

theorem admitsRow_of {t : Ledger} {pot : Pot} {delta : Decimal} {source : CashflowSource}
    {refId : Option String} {note : String} {entry : CashflowEntry}
    (fields : EntryOf pot delta source refId note entry)
    (adm : Admits t pot entry.delta source note) : AdmitsRow t (svc.row entry) := by
  obtain ⟨rfl, _, rfl, _, rfl⟩ := fields
  exact adm

theorem credit_writes {call : Call} {t : Ledger} (h : WritesTo P call rows t) (pot : Pot)
    (amountUsd : Decimal) (source : CashflowSource) (refId : Option String) (note : String) :
    Ensures (credit P svc pot amountUsd source refId note) t
      (fun _ => WritesTo P call rows) (fun _ => WritesTo P call rows) := by
  refine ensures_mono (credit_spec P svc t pot source refId note amountUsd) ?_ ?_
  · rintro entry _ ⟨fields, pos, adm, rfl⟩
    exact writes_deposit h (admitsRow_of svc fields adm) pos
  · rintro err _ ⟨rfl, _⟩
    exact h

theorem creditPositive_writes {call : Call} {t : Ledger} (h : WritesTo P call rows t) (pot : Pot)
    (part : Decimal) (source : CashflowSource) (refId : Option String) (opEntry : CashflowEntry) :
    Ensures (creditPositive P svc pot part source refId opEntry) t
      (fun _ => WritesTo P call rows) (fun _ => WritesTo P call rows) := by
  refine ensures_bind (ensures_attempt ?_ fun _ _ => h)
  intro positive _
  cases positive with
  | true => exact credit_writes P svc h pot part source refId ""
  | false => exact ensures_pure h

theorem splitAndRecordInflow_writes (call : Call) (amountUsd : Decimal) (source : CashflowSource)
    (refId : Option String) (reserveCap : Option Decimal) (trailing90dRevenue : Decimal) :
    Ensures (splitAndRecordInflow P svc amountUsd source refId reserveCap trailing90dRevenue) rows
      (fun _ => WritesTo P call rows) (fun _ => WritesTo P call rows) := by
  refine ensures_bind (ensures_snapshot fun snap _ => ?_)
  refine ensures_bind (ensures_attempt (fun growthCap _ => ?_) fun _ _ => writes_none)
  refine ensures_bind (ensures_attempt (fun s _ => ?_) fun _ _ => writes_none)
  refine ensures_bind (ensures_mono (credit_writes P svc writes_none .operating s.operating
    source refId "") ?_ fun _ _ h => h)
  intro opEntry t h
  refine ensures_bind (ensures_mono (creditPositive_writes P svc h .reserve s.reserve
    source refId opEntry) ?_ fun _ _ h => h)
  intro resEntry t h
  refine ensures_bind (ensures_mono (creditPositive_writes P svc h .growth s.growth
    source refId opEntry) ?_ fun _ _ h => h)
  intro grEntry t h
  exact ensures_pure h

theorem took_writes {amountUsd : Decimal} {dateIso signature operatorSecret : String}
    {out : CashflowEntry} (took : Took P rows amountUsd dateIso signature operatorSecret out) :
    WritesTo P (.emergencyTransfer amountUsd dateIso signature operatorSecret) rows
      (append rows (svc.row out)) := by
  refine writes_first (admitsRow_of svc took.fields took.admitted) fun _ => ?_
  obtain ⟨pot, _, source, _, note⟩ := took.fields
  simp only [Withdraws, firstWrite, took.verified, took.negated, Except.toOption, Option.map_some,
    CashflowService.row, pot, source, note]

theorem emergencyTransfer_writes (amountUsd : Decimal) (dateIso signature operatorSecret : String) :
    Ensures (emergencyTransferReserveToOperating P svc amountUsd dateIso signature operatorSecret)
      rows (fun _ => WritesTo P (.emergencyTransfer amountUsd dateIso signature operatorSecret) rows)
      (fun _ => WritesTo P (.emergencyTransfer amountUsd dateIso signature operatorSecret) rows) := by
  refine ensures_mono (emergencyTransfer_spec P svc rows amountUsd dateIso signature
    operatorSecret) ?_ ?_
  · rintro entries _ ⟨took, fields, adm, rfl⟩
    apply writes_deposit (took_writes P svc took) (admitsRow_of svc fields adm)
    exact took.positive _ ⟨_, fields.delta, rfl⟩
  · rintro err t (⟨rfl, _⟩ | ⟨out, took, rfl, _⟩)
    · exact writes_none
    · exact took_writes P svc took

/-- Every call is a run of admitted writes, whether it returns or raises. -/
theorem step_writes (rows : Ledger) (call : Call) :
    WritesTo P call rows (step P svc rows call) := by
  cases call with
  | record pot delta source refId note =>
    refine ensures_after (ensures_mono (record_spec P svc rows pot source refId note delta) ?_ ?_)
    · rintro entry _ ⟨fields, adm, rfl⟩
      refine writes_first (admitsRow_of svc fields adm) fun _ => ?_
      obtain ⟨pot, delta, source, _, note⟩ := fields
      simp [Withdraws, firstWrite, CashflowService.row, pot, delta, source, note]
    · rintro err _ ⟨rfl, _⟩
      exact writes_none
  | debit pot amount source refId note =>
    refine ensures_after (ensures_mono (debit_spec P svc rows pot source refId note amount) ?_ ?_)
    · rintro entry _ ⟨fields, negated, _, adm, rfl⟩
      refine writes_first (admitsRow_of svc fields adm) fun _ => ?_
      obtain ⟨pot, _, source, _, note⟩ := fields
      simp [Withdraws, firstWrite, CashflowService.row, Except.toOption, negated, pot, source, note]
    · rintro err _ ⟨rfl, _⟩
      exact writes_none
  | credit pot amount source refId note =>
    exact ensures_after (credit_writes P svc writes_none pot amount source refId note)
  | splitAndRecordInflow amount source refId reserveCap trailing =>
    exact ensures_after
      (splitAndRecordInflow_writes P svc _ amount source refId reserveCap trailing)
  | emergencyTransfer amount dateIso signature secret =>
    exact ensures_after (emergencyTransfer_writes P svc amount dateIso signature secret)

end Calls

end CashflowLedger
