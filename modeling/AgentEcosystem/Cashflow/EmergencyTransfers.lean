import AgentEcosystem.Cashflow.FieldCheck
import AgentEcosystem.Cashflow.Writes
import AgentEcosystem.Decimal.DecimalText

/-!
Transfers requested by a party that holds signatures but not the secret. Each
transfer takes exactly the amount of a message the operator signed, because the
text that is signed determines amount and date. Nothing remembers a signature
that was used, so a message counts once for every request that presents it.
-/
namespace CashflowLedger
open AgentSchemas DecimalArithmetic NearestRounding Raising Decimal Runs

structure TransferRequest where
  amountUsd : Decimal
  dateIso : String
  signature : String

def TransferRequest.call (secret : String) (r : TransferRequest) : Call :=
  .emergencyTransfer r.amountUsd r.dateIso r.signature secret

def TransferRequest.message (r : TransferRequest) : String :=
  emergencyMessage r.amountUsd r.dateIso

structure SignedTransfer where
  amount : FiniteDecimal
  dateIso : String

def SignedTransfer.message (s : SignedTransfer) : String :=
  emergencyMessage (.finite s.amount) s.dateIso

/-- Every signature presented that is a digest under the secret at all is the
    digest of a message the operator has signed. -/
def KnowsOnly (P : Platform) (secret : String) (signed : List SignedTransfer)
    (requests : List TransferRequest) : Prop :=
  ∀ r ∈ requests, ∀ msg, r.signature = P.hmacHexdigest secret msg →
    ∃ s ∈ signed, r.signature = P.hmacHexdigest secret s.message

theorem emergencyMessage_toList (amountUsd : Decimal) (dateIso : String) :
    (emergencyMessage amountUsd dateIso).toList =
      amountUsd.str.toList ++ '|' :: dateIso.toList := by
  simp only [emergencyMessage, String.toList_append, List.append_assoc]
  rfl

theorem bar_splits {xs ys us vs : List Char} (plain : '|' ∉ xs) (plain' : '|' ∉ us)
    (same : xs ++ '|' :: ys = us ++ '|' :: vs) : xs = us ∧ ys = vs := by
  induction xs generalizing us with
  | nil =>
    cases us with
    | nil => simpa using same
    | cons u us =>
      obtain ⟨rfl, _⟩ := List.cons.inj same
      exact absurd List.mem_cons_self plain'
  | cons x xs ih =>
    cases us with
    | nil =>
      obtain ⟨rfl, _⟩ := List.cons.inj same
      exact absurd List.mem_cons_self plain
    | cons u us =>
      obtain ⟨rfl, rest⟩ := List.cons.inj same
      have later : '|' ∉ xs := fun mem => plain (List.mem_cons_of_mem _ mem)
      have later' : '|' ∉ us := fun mem => plain' (List.mem_cons_of_mem _ mem)
      obtain ⟨rfl, tails⟩ := ih later later' rest
      exact ⟨rfl, tails⟩

theorem str_no_bar (x : FiniteDecimal) : '|' ∉ (Decimal.finite x).str.toList := by
  intro mem
  rcases str_chars mem with digit | same | same | same | same
  · exact absurd digit (by decide)
  all_goals exact absurd same (by decide)

theorem emergencyMessage_injective {x y : FiniteDecimal} {d e : String}
    (same : emergencyMessage (.finite x) d = emergencyMessage (.finite y) e) :
    x.toRat = y.toRat ∧ d = e := by
  have chars := congrArg String.toList same
  rw [emergencyMessage_toList, emergencyMessage_toList] at chars
  obtain ⟨amount, date⟩ := bar_splits (str_no_bar x) (str_no_bar y) chars
  exact ⟨toRat_eq_of_str (String.toList_injective amount), String.toList_injective date⟩

theorem verified_digest {P : Platform} {secret dateIso signature : String} {amountUsd : Decimal}
    (verified : verifyEmergencyHmac P secret amountUsd dateIso signature = .ok true) :
    signature = P.hmacHexdigest secret (emergencyMessage amountUsd dateIso) := by
  unfold verifyEmergencyHmac compareDigest at verified
  split at verified
  · exact (beq_iff_eq.mp (Except.ok.inj verified)).symm
  · cases verified

/-- One signature stands for one amount and one date. -/
theorem signature_binds (P : Platform) {secret : String}
    (injective : Function.Injective (P.hmacHexdigest secret)) {x y : FiniteDecimal}
    {d e signature : String}
    (first : verifyEmergencyHmac P secret (.finite x) d signature = .ok true)
    (second : verifyEmergencyHmac P secret (.finite y) e signature = .ok true) :
    (Decimal.finite x).eq (.finite y) = .ok true ∧ x.toRat = y.toRat ∧ d = e := by
  have digest := verified_digest first
  have digest' := verified_digest second
  obtain ⟨amount, date⟩ := emergencyMessage_injective (injective (digest.symm.trans digest'))
  refine ⟨?_, amount, date⟩
  rw [eq_hasValue (hasValue_finite x) (hasValue_finite y), decide_eq_true amount]

theorem signature_binds_hundred :
    (Decimal.ofNat 100).eq (.ofNat 100) = .ok true ∧
      (FiniteDecimal.ofNat 100).toRat = (FiniteDecimal.ofNat 100).toRat ∧
      "2026-04-18" = "2026-04-18" := by
  have signed : verifyEmergencyHmac runnablePlatform "test-secret" (.ofNat 100) "2026-04-18"
      testDigest = .ok true := by decide +kernel
  exact signature_binds runnablePlatform (runnableHmac_injective "test-secret") signed signed

def withdrawal (row : LedgerRow) (p : Pot) : ℚ :=
  if row.pot = p then max (-row.delta.toRat) 0 else 0

def withdrawn (rows : Ledger) (p : Pot) : ℚ := (rows.map fun row => withdrawal row p).sum

theorem withdrawn_append (rows : Ledger) (row : LedgerRow) (p : Pot) :
    withdrawn (append rows row) p = withdrawn rows p + withdrawal row p := by
  simp [withdrawn, append]

/-- What one presentation of a signed message can move. -/
def worth (s : SignedTransfer) : ℚ := max (defaultContext.round s.amount.toRat) 0

def allowance (signed : List SignedTransfer) (r : TransferRequest) : ℚ :=
  (signed.map fun s => if r.message = s.message then worth s else 0).sum

theorem allowance_terms_nonneg (signed : List SignedTransfer) (r : TransferRequest) :
    ∀ q ∈ signed.map fun s => if r.message = s.message then worth s else 0, 0 ≤ q := by
  intro q mem
  obtain ⟨s, _, rfl⟩ := List.mem_map.mp mem
  split
  · exact le_max_right _ _
  · exact le_refl 0

section Known
variable {P : Platform} (svc : CashflowService) {secret : String} {signed : List SignedTransfer}
  (injective : Function.Injective (P.hmacHexdigest secret))
include injective

theorem took_allowed {rows : Ledger} {r : TransferRequest} {out : CashflowEntry}
    (known : KnowsOnly P secret signed [r])
    (took : Took P rows r.amountUsd r.dateIso r.signature secret out) :
    withdrawal (svc.row out) .reserve ≤ allowance signed r := by
  have digest := verified_digest took.verified
  obtain ⟨s, member, same⟩ := known r (List.mem_singleton_self r) _ digest
  have message : r.message = s.message := injective (digest.symm.trans same)
  obtain ⟨x, finite, value⟩ := neg_finite took.negated
  have amount : x.toRat = s.amount.toRat := by
    unfold TransferRequest.message SignedTransfer.message at message
    rw [finite] at message
    exact (emergencyMessage_injective message).1
  have moved : withdrawal (svc.row out) .reserve = worth s := by
    have pot : (svc.row out).pot = .reserve := took.fields.pot
    have delta : (svc.row out).delta.toRat = -defaultContext.round x.toRat := value
    rw [withdrawal, if_pos pot, delta, neg_neg, amount, worth]
  rw [moved]
  apply List.single_le_sum (allowance_terms_nonneg signed r)
  exact List.mem_map.mpr ⟨s, member, if_pos message⟩

theorem step_withdrawn (rows : Ledger) {r : TransferRequest}
    (known : KnowsOnly P secret signed [r]) :
    withdrawn (step P svc rows (r.call secret)) .reserve ≤
      withdrawn rows .reserve + allowance signed r := by
  let Bounded (t : Ledger) : Prop :=
    withdrawn t .reserve ≤ withdrawn rows .reserve + allowance signed r
  have out_bounded : ∀ out, Took P rows r.amountUsd r.dateIso r.signature secret out →
      Bounded (append rows (svc.row out)) := by
    intro out took
    have moved := took_allowed svc injective known took
    have added := withdrawn_append rows (svc.row out) .reserve
    change withdrawn _ _ ≤ _
    linarith
  apply ensures_after (Q := Bounded)
  apply ensures_mono (emergencyTransfer_spec P svc rows r.amountUsd r.dateIso r.signature secret)
  · rintro entries _ ⟨took, fields, _, rfl⟩
    have paid_in : withdrawal (svc.row entries.2) .reserve = 0 := by
      have pot : (svc.row entries.2).pot = .operating := fields.pot
      rw [withdrawal, if_neg (by rw [pot]; decide)]
    have bounded := out_bounded _ took
    change withdrawn _ _ ≤ _ at bounded ⊢
    rw [withdrawn_append, paid_in, add_zero]
    exact bounded
  · rintro err t (⟨rfl, _⟩ | ⟨out, took, rfl, _⟩)
    · have nonneg := List.sum_nonneg (allowance_terms_nonneg signed r)
      change withdrawn t .reserve ≤ withdrawn t .reserve + (signed.map _).sum
      linarith
    · exact out_bounded out took

omit injective in
def presentations (requests : List TransferRequest) (s : SignedTransfer) : ℕ :=
  requests.countP fun r => r.message == s.message

omit injective in
theorem presentations_cons (r : TransferRequest) (requests : List TransferRequest) :
    (signed.map fun s => (presentations (r :: requests) s : ℚ) * worth s).sum =
      allowance signed r + (signed.map fun s => (presentations requests s : ℚ) * worth s).sum := by
  rw [allowance, ← List.sum_map_add]
  congr 1
  apply List.map_congr_left
  intro s _
  by_cases same : r.message = s.message
  · simp only [presentations, List.countP_cons, same, beq_self_eq_true, if_true]
    push_cast
    ring
  · simp [presentations, same]

/-- Over a whole run, no more leaves Reserve than the signed amounts, each
    counted once for every request that presents its message. -/
theorem withdrawn_le_presented (rows : Ledger) (requests : List TransferRequest)
    (known : KnowsOnly P secret signed requests) :
    withdrawn (run (step P svc) rows (requests.map (·.call secret))) .reserve ≤
      withdrawn rows .reserve +
        (signed.map fun s => (presentations requests s : ℚ) * worth s).sum := by
  induction requests generalizing rows with
  | nil => simp [presentations]
  | cons r requests ih =>
    have first : KnowsOnly P secret signed [r] := by
      intro r' mem
      rw [List.mem_singleton.mp mem]
      exact known r List.mem_cons_self
    have rest := ih (step P svc rows (r.call secret))
      fun r' mem => known r' (List.mem_cons_of_mem r mem)
    have now := step_withdrawn svc injective rows first
    rw [List.map_cons, run_cons, presentations_cons]
    linarith

end Known

def reserveSeed : Ledger :=
  run (step runnablePlatform motherService) [] [.credit .reserve (.ofNat 500) .manualTopup none ""]

def signedHundred : SignedTransfer := ⟨.ofNat 100, "2026-04-18"⟩

def presentHundred : TransferRequest := ⟨.ofNat 100, "2026-04-18", testDigest⟩

theorem known_hundred :
    KnowsOnly runnablePlatform "test-secret" [signedHundred] [presentHundred, presentHundred] := by
  intro r mem msg _
  have digest : testDigest = runnablePlatform.hmacHexdigest "test-secret" signedHundred.message := by
    decide +kernel
  refine ⟨signedHundred, List.mem_cons_self, ?_⟩
  rcases List.mem_cons.mp mem with rfl | mem
  · exact digest
  · rw [List.mem_singleton.mp mem]
    exact digest

theorem withdrawn_le_presented_twice :
    withdrawn (run (step runnablePlatform motherService) reserveSeed
      ([presentHundred, presentHundred].map (·.call "test-secret"))) .reserve ≤
      withdrawn reserveSeed .reserve + ([signedHundred].map fun s =>
        (presentations [presentHundred, presentHundred] s : ℚ) * worth s).sum :=
  withdrawn_le_presented motherService (runnableHmac_injective "test-secret") reserveSeed _
    known_hundred

/-- One signed message, presented twice, moves twice its amount. -/
theorem replayed_transfer :
    Function.Injective (runnablePlatform.hmacHexdigest "test-secret") ∧
    KnowsOnly runnablePlatform "test-secret" [signedHundred] [presentHundred, presentHundred] ∧
    ¬ withdrawn (run (step runnablePlatform motherService) reserveSeed
      ([presentHundred, presentHundred].map (·.call "test-secret"))) .reserve ≤
      withdrawn reserveSeed .reserve + ([signedHundred].map fun s => s.amount.toRat).sum :=
  ⟨runnableHmac_injective "test-secret", known_hundred, by decide +kernel⟩

end CashflowLedger
