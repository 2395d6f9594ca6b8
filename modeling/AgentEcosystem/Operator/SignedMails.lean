import AgentEcosystem.Cashflow.Reconciliation
import AgentEcosystem.Operator.SignCommand

/-!
Emergency transfers from the operator's desk to the ledger. An amount is typed for the sign
command and in the subject of a mail; the ledger moves the number that is read from the
subject if the signature is for it, and every mail moves its whole amount or nothing.
-/
namespace EmergencyTransferScript
open AgentSchemas CashflowLedger DecimalArithmetic NearestRounding OperatorParser Raising Runs
  UnicodeText Decimal

structure Mail where
  typed : String
  request : TransferRequest

def Mail.amount (mail : Mail) : ℚ :=
  match mail.request.amountUsd with
  | .finite x => x.toRat
  | _ => 0

/-- Typed the way it is printed, dated, and an amount that the ledger can hold. -/
def Payable (mail : Mail) : Prop :=
  mail.request.amountUsd.str = mail.typed ∧ mail.request.dateIso ≠ "" ∧
    0 < mail.amount ∧ mail.amount < 10 ^ 8 ∧
    (emergencyNote mail.request.dateIso).length ≤ noteMaxLength

instance : DecidablePred Payable := fun mail =>
  inferInstanceAs (Decidable (mail.request.amountUsd.str = mail.typed ∧
    mail.request.dateIso ≠ "" ∧ 0 < mail.amount ∧ mail.amount < 10 ^ 8 ∧
    (emergencyNote mail.request.dateIso).length ≤ noteMaxLength))

/-- The request carries the amount that is read from a subject with the typed one, and
    the signature that the command prints for it. -/
structure Mailed (P : Platform) (host : Host) (sha256 : Sha256) (data : StrData)
    (secretEnv : String) (mail : Mail) : Prop where
  read : ∃ subject body verb direction m, split subject = [verb, text mail.typed, direction] ∧
    parse sha256 data subject body = .ok (.operatorMessage m) ∧
    m.amountUsd = some mail.request.amountUsd
  signed : sign P host data mail.typed (some mail.request.dateIso) secretEnv =
    .ok mail.request.signature

def Distinct (P : Platform) (host : Host) (secret : String) (mail : Mail) : Prop :=
  P.hmacHexdigest secret mail.request.message =
    P.hmacHexdigest secret (signedMessage host mail.typed (some mail.request.dateIso)) →
  mail.request.message = signedMessage host mail.typed (some mail.request.dateIso)

section Transfers
variable {P : Platform} {host : Host} {sha256 : Sha256} {data : StrData}
  {secretEnv secret : String} {mail : Mail}

theorem amount_cents {whole cents : List (Fin 10)} (short : cents.length ≤ 2) :
    ∃ x, decimalOf whole cents = .finite x ∧ x.toRat ∈ Grid ((10 : ℚ) ^ (-4 : ℤ)) := by
  refine ⟨_, rfl, ofDigits (whole ++ cents) * 10 ^ (4 - cents.length), ?_⟩
  have scaled : (10 : ℚ) ^ (-(cents.length : ℤ)) = 10 ^ (4 - cents.length) * 10 ^ (-4 : ℤ) := by
    rw [← zpow_natCast, ← ten_zpow_add]
    congr 1
    omega
  rw [Context.toRat_mk]
  simp only [Context.signFactor, Bool.false_eq_true, if_false]
  rw [scaled]
  push_cast
  ring

theorem fits_of_small {x : FiniteDecimal} (onGrid : x.toRat ∈ Grid ((10 : ℚ) ^ (-4 : ℤ)))
    (small : |x.toRat| < 10 ^ 8) : FitsField deltaMaxDigits deltaDecimalPlaces x := by
  refine ⟨onGrid, ?_⟩
  norm_num [deltaMaxDigits, deltaDecimalPlaces]
  linarith

theorem signature_of_sign (env : host.environ secretEnv = some secret)
    {typed dateIso signature : String}
    (signed : sign P host data typed (some dateIso) secretEnv = .ok signature) :
    signature = P.hmacHexdigest secret (signedMessage host typed (some dateIso)) := by
  unfold sign at signed
  rw [env] at signed
  dsimp only [Option.getD_some] at signed
  split_ifs at signed
  cases signed
  rfl

variable (env : host.environ secretEnv = some secret)
  (ascii : ∀ msg, ∀ c ∈ (P.hmacHexdigest secret msg).toList, c.toNat < 128)
  (mailed : Mailed P host sha256 data secretEnv mail) (distinct : Distinct P host secret mail)

include mailed in
theorem amount_read : ∃ x, mail.request.amountUsd = .finite x ∧
    x.toRat ∈ Grid ((10 : ℚ) ^ (-4 : ℤ)) ∧ mail.amount = x.toRat := by
  obtain ⟨subject, body, verb, direction, m, tokens, parsed, carries⟩ := mailed.read
  obtain ⟨whole, cents, matched, read⟩ := amount_extracted tokens parsed carries
  obtain ⟨x, finite, onGrid⟩ := amount_cents (digits_of_amount data matched).2
  rw [finite] at read
  exact ⟨x, read, onGrid, by rw [Mail.amount, read]⟩

include env ascii mailed distinct in
/- A signature is accepted if the amount was typed the way it is printed. -/
theorem verified_iff : verifyEmergencyHmac P secret mail.request.amountUsd mail.request.dateIso
    mail.request.signature = .ok true ↔
      mail.request.amountUsd.str = mail.typed ∧ mail.request.dateIso ≠ "" := by
  obtain ⟨subject, body, verb, direction, m, tokens, parsed, carries⟩ := mailed.read
  obtain ⟨whole, cents, matched, read⟩ := amount_extracted tokens parsed carries
  have messages := message_eq_iff host matched mail.request.dateIso
  rw [← read, ← str_eq_iff data matched, ← read] at messages
  rw [← messages]
  have chars : ∀ msg, ((P.hmacHexdigest secret msg).toList.all fun c => c.toNat < 128) = true :=
    fun msg => List.all_eq_true.mpr fun c mem => decide_eq_true (ascii msg c mem)
  rw [verifyEmergencyHmac, signature_of_sign env mailed.signed, compareDigest, chars, chars,
    Bool.and_self, if_pos rfl, Except.ok.injEq, beq_iff_eq]
  exact ⟨distinct, congrArg _⟩

def Moves (rows t : Ledger) (q : ℚ) : Prop :=
  ∃ out inn, t = append (append rows out) inn ∧ out.pot = .reserve ∧ out.delta.toRat = -q ∧
    inn.pot = .operating ∧ inn.delta.toRat = q

include env ascii mailed distinct in
/-- A mail moves its amount if it is payable, and nothing else. -/
theorem transfer_settles (svc : CashflowService) (rows : Ledger) :
    Ensures (emergencyTransferReserveToOperating P svc mail.request.amountUsd
      mail.request.dateIso mail.request.signature secret) rows
      (fun _ t => Payable mail ∧ Moves rows t mail.amount)
      (fun _ t => ¬ Payable mail ∧ t = rows) := by
  obtain ⟨x, finite, onGrid, amount⟩ := amount_read mailed
  have accepted := verified_iff env ascii mailed distinct
  have value : mail.request.amountUsd.HasValue x.toRat := finite ▸ hasValue_finite x
  apply ensures_mono (emergencyTransfer_spec P svc rows _ _ _ _)
  · rintro entries t ⟨took, fields, admits, rfl⟩
    obtain ⟨plain, dated⟩ := accepted.mp took.verified
    have positive := took.positive x.toRat value
    have same : entries.2.delta = x := by
      have delta := fields.delta
      rw [finite] at delta
      exact (Decimal.finite.inj delta).symm
    have small := (abs_lt.mp (field_small admits.fits)).2
    rw [same] at small
    obtain ⟨y, read, taken⟩ := neg_finite took.negated
    rw [finite] at read
    cases read
    rw [round_money onGrid (by rw [abs_of_pos positive]; linarith)] at taken
    rw [← amount] at positive small taken
    refine ⟨⟨plain, dated, positive, small, took.admitted.note_fits⟩, svc.row entries.1,
      svc.row entries.2, rfl, took.fields.pot, taken, fields.pot, ?_⟩
    rw [amount]
    exact congrArg FiniteDecimal.toRat same
  · rintro err t (⟨rfl, refused⟩ | ⟨out, took, rfl, refused⟩)
    · refine ⟨?_, rfl⟩
      rintro ⟨plain, dated, positive, small, note⟩
      rw [amount] at positive small
      have bound : |x.toRat| < 10 ^ 8 := by rwa [abs_of_pos positive]
      have far : (10 : ℚ) ^ (8 : ℤ) ≤ 10 ^ defaultContext.emax := ten_zpow_le (by decide)
      norm_num at far
      have fits : |x.toRat| < (10 : ℚ) ^ defaultContext.emax := by linarith
      obtain ⟨_, negated, y, rfl, opposite⟩ := neg_ok value fits
      rw [round_money (grid_neg onGrid) (by rw [abs_neg]; linarith)] at opposite
      have negative : y.toRat < 0 := by linarith
      refine refused y (accepted.mpr ⟨plain, dated⟩) negated negative
        ⟨negative.ne, fun _ => rfl, fits_of_small ?_ ?_, note⟩
      · rw [opposite]
        exact grid_neg onGrid
      · rw [opposite, abs_neg]
        exact bound
    · have positive := took.positive x.toRat value
      obtain ⟨y, read, taken⟩ := neg_finite took.negated
      rw [finite] at read
      cases read
      have small : x.toRat < 10 ^ 8 := by
        by_contra large
        have million : (10 ^ 8 : ℚ) ∈ defaultContext.Representable :=
          ⟨1, 8, by decide, by decide, by norm_num⟩
        have kept := defaultContext.rounding.le_round million (not_lt.mp large)
        change 10 ^ 8 ≤ defaultContext.round x.toRat at kept
        have bound := (abs_lt.mp (field_small took.admitted.fits)).1
        linarith
      refine absurd ⟨positive.ne', fun negative => absurd negative (not_lt.mpr positive.le),
        fits_of_small onGrid ?_, took.admitted.note_fits⟩ (refused x finite)
      rwa [abs_of_pos positive]

def Mail.pays (mail : Mail) : ℚ := if Payable mail then mail.amount else 0

def paid (mails : List Mail) : ℚ := (mails.map Mail.pays).sum

def shift (q : ℚ) : Pot → ℚ
  | .operating => q
  | .reserve => -q
  | .growth => 0

theorem shift_add (q r : ℚ) (p : Pot) : shift (q + r) p = shift q p + shift r p := by
  cases p with
  | operating => rfl
  | reserve => exact neg_add q r
  | growth => exact (add_zero 0).symm

theorem shift_zero (p : Pot) : shift 0 p = 0 := by
  cases p with
  | operating => rfl
  | reserve => exact neg_zero
  | growth => rfl

theorem Moves.shifts {rows t : Ledger} {q : ℚ} (moves : Moves rows t q) (p : Pot) :
    entered t p = entered rows p + shift q p := by
  obtain ⟨out, inn, rfl, outPot, taken, innPot, given⟩ := moves
  rw [append, append, entered_append, entered_append, outPot, innPot, taken, given]
  cases p with
  | operating => rfl
  | reserve => rfl
  | growth => exact (add_zero _).symm

theorem Moves.length {rows t : Ledger} {q : ℚ} (moves : Moves rows t q) :
    t.length = rows.length + 2 := by
  obtain ⟨out, inn, rfl, _⟩ := moves
  simp [append]

include env ascii mailed distinct in
theorem step_settles (svc : CashflowService) (rows : Ledger) :
    (step P svc rows (mail.request.call secret)).length =
      rows.length + (if Payable mail then 2 else 0) ∧
    ∀ p, entered (step P svc rows (mail.request.call secret)) p =
      entered rows p + shift mail.pays p := by
  have settled : (Payable mail ∧
      Moves rows (step P svc rows (mail.request.call secret)) mail.amount) ∨
      ¬ Payable mail ∧ step P svc rows (mail.request.call secret) = rows := by
    apply ensures_after (Q := fun t => Payable mail ∧ Moves rows t mail.amount ∨
      ¬ Payable mail ∧ t = rows)
    exact ensures_mono (transfer_settles env ascii mailed distinct svc rows)
      (fun _ _ pays => .inl pays) fun _ _ keeps => .inr keeps
  rcases settled with ⟨payable, moves⟩ | ⟨refused, kept⟩
  · rw [Mail.pays, if_pos payable, if_pos payable]
    exact ⟨moves.length, moves.shifts⟩
  · rw [kept, Mail.pays, if_neg refused, if_neg refused]
    refine ⟨rfl, ?_⟩
    intro p
    rw [shift_zero, add_zero]

include env ascii mailed distinct in
theorem returns_iff (svc : CashflowService) (rows : Ledger) :
    (outcome (emergencyTransferReserveToOperating P svc mail.request.amountUsd
      mail.request.dateIso mail.request.signature secret) rows).1.isOk = true ↔ Payable mail := by
  have settled := transfer_settles env ascii mailed distinct svc rows
  rcases ran : outcome (emergencyTransferReserveToOperating P svc mail.request.amountUsd
    mail.request.dateIso mail.request.signature secret) rows with ⟨err | entries, t⟩
  · have refused := (ensures_of_raises settled ran).1
    exact ⟨fun ok => absurd ok Bool.false_ne_true, fun payable => absurd payable refused⟩
  · exact ⟨fun _ => (ensures_of_returns settled ran).1, fun _ => rfl⟩

include env ascii in
/-- Every mail that is payable is paid and every other is refused, whatever is on the
    ledger. In all they move what the payable ones say from Reserve to Operating, in two
    rows each, and nothing into or out of the ledger. -/
theorem mails_settled (svc : CashflowService) {mails : List Mail}
    (mailed : ∀ mail ∈ mails, Mailed P host sha256 data secretEnv mail)
    (distinct : ∀ mail ∈ mails, Distinct P host secret mail) (rows : Ledger) :
    (∀ mail ∈ mails, ∀ t, (outcome (emergencyTransferReserveToOperating P svc
      mail.request.amountUsd mail.request.dateIso mail.request.signature secret) t).1.isOk = true ↔
        Payable mail) ∧
    (run (step P svc) rows (mails.map fun mail => mail.request.call secret)).length =
      rows.length + 2 * mails.countP Payable ∧
    ∀ p, entered (run (step P svc) rows (mails.map fun mail => mail.request.call secret)) p =
      entered rows p + shift (paid mails) p := by
  refine ⟨fun mail mem => returns_iff env ascii (mailed mail mem) (distinct mail mem) svc, ?_⟩
  induction mails generalizing rows with
  | nil =>
    refine ⟨rfl, ?_⟩
    intro p
    change entered rows p = entered rows p + shift 0 p
    rw [shift_zero, add_zero]
  | cons mail mails ih =>
    obtain ⟨first, later⟩ := List.forall_mem_cons.mp mailed
    obtain ⟨apart, apart'⟩ := List.forall_mem_cons.mp distinct
    obtain ⟨count, totals⟩ := step_settles env ascii first apart svc rows
    obtain ⟨counts, totals'⟩ := ih later apart' (step P svc rows (mail.request.call secret))
    rw [List.map_cons, run_cons]
    constructor
    · rw [counts, count, List.countP_cons]
      simp only [decide_eq_true_eq]
      split
      · omega
      · omega
    · intro p
      have sum : paid (mail :: mails) = mail.pays + paid mails := by
        rw [paid, List.map_cons, List.sum_cons]
        rfl
      rw [totals', totals, sum, shift_add, add_assoc]

end Transfers

def typedTwice : List Mail :=
  [⟨"7.50", ⟨decimalOf [7] [5, 0], "2026-04-18", printedDigest⟩⟩,
    ⟨"007.50", ⟨decimalOf [0, 0, 7] [5, 0], "2026-04-18", typedDigest⟩⟩]

def filledReserve : Ledger :=
  run (step signingPlatform motherService) []
    [.credit .reserve (.ofNat 500) .manualTopup none ""]

theorem digests_ascii (secret msg : String) :
    ∀ c ∈ (signingPlatform.hmacHexdigest secret msg).toList, c.toNat < 128 := by
  have all : ([typedDigest, printedDigest].all fun digest =>
      digest.toList.all fun c => decide (c.toNat < 128)) = true := by decide
  have either : signingPlatform.hmacHexdigest secret msg ∈ [typedDigest, printedDigest] := by
    simp only [signingPlatform]
    split
    · exact List.mem_cons_self
    · exact List.mem_cons_of_mem _ List.mem_cons_self
  intro c inside
  exact of_decide_eq_true (List.all_eq_true.mp (List.all_eq_true.mp all _ either) c inside)

theorem typed_twice_settled :
    (run (step signingPlatform motherService) filledReserve
      (typedTwice.map fun mail => mail.request.call "test-secret")).length = 3 ∧
    entered (run (step signingPlatform motherService) filledReserve
      (typedTwice.map fun mail => mail.request.call "test-secret")) .reserve = 985 / 2 := by
  have mailed : ∀ mail ∈ typedTwice,
      Mailed signingPlatform signingHost killSha256 asciiStrData "OPERATOR_HMAC_SECRET" mail := by
    simp only [typedTwice, List.forall_mem_cons, List.not_mem_nil, false_implies, implies_true,
      and_true]
    exact ⟨⟨⟨transferSubject "7.50", [], _, _, _, rfl, rfl, rfl⟩, by decide +kernel⟩,
      ⟨transferSubject "007.50", [], _, _, _, rfl, rfl, rfl⟩, by decide +kernel⟩
  have distinct : ∀ mail ∈ typedTwice,
      Distinct signingPlatform signingHost "test-secret" mail := by
    simp only [typedTwice, List.forall_mem_cons, List.not_mem_nil, false_implies, implies_true,
      and_true]
    constructor
    · exact fun _ => by decide +kernel
    · exact fun same => absurd same (by decide +kernel)
  obtain ⟨_, count, totals⟩ := mails_settled rfl (digests_ascii "test-secret") motherService mailed
    distinct filledReserve
  refine ⟨count.trans (by decide +kernel), (totals .reserve).trans (by decide +kernel)⟩

end EmergencyTransferScript
