import AgentEcosystem.Preregistration.LockHash

/-!
A payload that is replaced after the record was created. The check ties the
content to the hash in the same payload; the column of the row is not looked at.
-/
namespace Preregistration
open AgentSchemas CanonicalJson DecimalArithmetic OrderedDict Raising UnicodeText

section Replace
variable {host : Host} {id : Uuid} {now : Timestamp}
  {verticalTitle hypothesis primaryMetric analysisPlan stoppingRule : String}
  {primaryThreshold : Decimal} {measurementWindowDays : ℤ} {table table' : Table}
  {prereg : PreRegistration}

def replacePayload (preregId : String) (payload : PyValue) (table : Table) : Table :=
  table.map fun row => if row.id = preregId then { row with payloadJson := payload } else row

def Detected (host : Host) (preregId : String) (table : Table) : Prop :=
  ∀ observed : Decimal, observed.isNaN = false →
    ∃ result, (get host preregId table >>= fun prereg => analyze host prereg observed) =
      .ok result ∧ result.hashValid = false

theorem analyze_read {preregId : String} {p : PreRegistration} {observed : Decimal}
    (read : get host preregId table = .ok p) :
    (get host preregId table >>= fun prereg => analyze host prereg observed) =
      analyze host p observed := by
  simp only [read, bind, Except.bind]

theorem get_replaced {row : PreRegistrationRow} {preregId : String} {payload : PyValue}
    (there : table.filter (fun row => row.id = preregId) = [row]) :
    get host preregId (replacePayload preregId payload table) = host.modelValidate payload := by
  have mine : row.id = preregId := by
    have mem : row ∈ table.filter fun row => row.id = preregId := by
      rw [there]
      exact List.mem_singleton_self row
    simpa using (List.mem_filter.mp mem).2
  have found : (replacePayload preregId payload table).filter (fun row => row.id = preregId) =
      [{ row with payloadJson := payload }] := by
    have commutes : (replacePayload preregId payload table).filter (fun row => row.id = preregId) =
        (table.filter fun row => row.id = preregId).map fun row =>
          if row.id = preregId then { row with payloadJson := payload } else row := by
      rw [replacePayload, List.filter_map]
      congr 1
      apply List.filter_congr
      intro other _
      by_cases same : other.id = preregId
      · simp [same]
      · simp [same]
    rw [commutes, there]
    simp [mine]
  rw [get, found]

theorem threshold_le_ok (p : PreRegistration) {observed : Decimal} (number : observed.isNaN = false) :
    ∃ met, p.primaryThreshold.le observed = .ok met := by
  have checks := errors_eq_nil.mp p.valid
  simp only [Fields.checks, List.forall_mem_cons] at checks
  have positive : isPositive p.primaryThreshold = true := checks.2.2.1
  cases threshold : p.primaryThreshold with
  | finite x =>
    cases observed with
    | finite y => exact ⟨_, rfl⟩
    | infinity neg => exact ⟨_, rfl⟩
    | nan signaling neg payload => cases number
  | infinity neg =>
    rw [threshold] at positive
    cases positive
  | nan signaling neg payload =>
    rw [threshold] at positive
    cases positive

theorem analyze_eq {p : PreRegistration} {observed : Decimal} {hashOk met : Bool}
    (verified : verifyHash host p = .ok hashOk)
    (compared : p.primaryThreshold.le observed = .ok met) : analyze host p observed =
      .ok ⟨p.id.str, met, observed, p.primaryThreshold, hashOk, notes hashOk met⟩ := by
  rw [analyze, verified, compared]
  rfl

theorem analyze_ok {p : PreRegistration} {observed : Decimal} (number : observed.isNaN = false)
    {hashOk : Bool} (verified : verifyHash host p = .ok hashOk) :
    ∃ result, analyze host p observed = .ok result ∧ result.hashValid = hashOk := by
  obtain ⟨met, compared⟩ := threshold_le_ok p number
  exact ⟨_, analyze_eq verified compared, rfl⟩

/-- A payload of other content is detected exactly when it keeps the hash that
    was written, or carries one that is not the hash of what it says. -/
theorem goalposts_detected_iff (dumpsBack : DumpsBack host)
    (created : create host id now verticalTitle hypothesis primaryMetric primaryThreshold
      measurementWindowDays analysisPlan stoppingRule table = .ok (prereg, table'))
    {later : Table} {payload : PyValue} {replaced : PreRegistration}
    (there : later.filter (fun row => row.id = prereg.id.str) = [rowOf prereg])
    (validates : host.modelValidate payload = .ok replaced)
    (differs : content replaced ≠ content prereg) (injective : NoCollision host prereg replaced) :
    Detected host prereg.id.str (replacePayload prereg.id.str payload later) ↔
      replaced.lockHash = (rowOf prereg).lockHash ∨ ¬ Sealed host replaced := by
  obtain ⟨sealed, _⟩ := create_spec dumpsBack created
  have read := Eq.trans (get_replaced there) validates
  have analyzed : ∀ observed, (get host prereg.id.str
      (replacePayload prereg.id.str payload later) >>= fun prereg => analyze host prereg observed) =
      analyze host replaced observed :=
    fun observed => analyze_read read
  constructor
  · intro detected
    right
    intro resealed
    have number : (Decimal.ofNat 0).isNaN = false := rfl
    obtain ⟨result, run, broken⟩ := detected (.ofNat 0) number
    rw [analyzed] at run
    obtain ⟨other, run', valid⟩ := analyze_ok number (verifyHash_sealed host resealed)
    rw [run] at run'
    cases run'
    rw [valid] at broken
    cases broken
  · intro condition
    have unsealed : ¬ Sealed host replaced := by
      rcases condition with kept | unsealed
      · exact not_sealed_of_content host sealed kept differs injective
      · exact unsealed
    intro observed number
    rw [analyzed]
    exact analyze_ok number (verifyHash_not_sealed host unsealed)

end Replace

theorem badge_there : [rowOf badge].filter (fun row => row.id = badge.id.str) = [rowOf badge] := by
  simp [rowOf]

theorem lowered_badge_detected : Detected badgeHost badge.id.str
    (replacePayload badge.id.str loweredBadge.modelDump.value [rowOf badge]) := by
  apply (goalposts_detected_iff badge_dumpsBack badge_created badge_there lowered_known
    lowered_differs lowered_noCollision).mpr
  exact .inl rfl

/-- A lowered threshold with a fresh hash passes for the genuine one. -/
theorem resealed_badge_passes :
    create badgeHost ⟨0x2a⟩ ⟨"2026-04-18T00:00:00Z"⟩ badgeDraft.verticalTitle
      badgeDraft.hypothesis badgeDraft.primaryMetric (.ofNat 500) 30 badgeDraft.analysisPlan
      badgeDraft.stoppingRule [] = .ok (badge, [rowOf badge]) ∧
    badgeHost.modelValidate resealedBadge.modelDump.value = .ok resealedBadge ∧
    content resealedBadge ≠ content badge ∧
    (get badgeHost badge.id.str
      (replacePayload badge.id.str resealedBadge.modelDump.value [rowOf badge]) >>=
        fun prereg => analyze badgeHost prereg (.ofNat 60)) =
      .ok ⟨badge.id.str, true, .ofNat 60, .ofNat 50, true, "threshold met"⟩ := by
  have differs : content resealedBadge ≠ content badge := by
    rw [resealed_content, badge_content]
    exact badgeContent_differs
  refine ⟨badge_created, resealed_known, differs, ?_⟩
  obtain ⟨_, bytes, _, _, encoded⟩ := (content_flat resealedBadge).bytes
  have sealed : Sealed badgeHost resealedBadge := by
    refine ⟨bytes, encoded, ?_⟩
    rw [resealed_content] at encoded
    rw [badge_hexdigest, lowered_digest encoded]
    rfl
  have verified := verifyHash_sealed badgeHost sealed
  have met : resealedBadge.primaryThreshold.le (.ofNat 60) = .ok true := by decide
  have read := (get_replaced badge_there).trans resealed_known
  rw [analyze_read read, analyze_eq verified met]
  rfl

end Preregistration
