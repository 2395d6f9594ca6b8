import AgentEcosystem.Preregistration.Register
import AgentEcosystem.Semantics.Raising
import AgentEcosystem.Text.Utf8RoundTrip

/-!
What the lock hash ties down. It is recomputed from the content of the record
that is read back and compared with the hash that stands in the same payload.
-/
namespace Preregistration
open AgentSchemas CanonicalJson DecimalArithmetic OrderedDict Raising UnicodeText

/-- What a field of a dumped record holds. -/
inductive FieldValue : PyValue → Prop where
  | str (s : String) : FieldValue (.str (text s))
  | int (n : ℤ) : FieldValue (.int n)
  | bool (b : Bool) : FieldValue (.bool b)

theorem FieldValue.plain {v : PyValue} (h : FieldValue v) : Plain v := by
  cases h with
  | str s => exact .str _
  | int n => exact .int n
  | bool b => exact .bool b

theorem FieldValue.encodes {v : PyValue} (h : FieldValue v) : Encodes v := by
  cases h with
  | str s => exact encodes_str s
  | int n => exact encodes_int n
  | bool b => exact encodes_bool b

theorem FieldValue.eq_of_same {v w : PyValue} (h : FieldValue v) (same : SameUpToOrder v w) :
    v = w := by
  cases h with
  | str s =>
    cases same with
    | str _ => rfl
  | int n =>
    cases same with
    | int _ => rfl
  | bool b =>
    cases same with
    | bool _ => rfl

def Flat (data : Document) : Prop :=
  ∀ m ∈ data.items, (∃ s, m.1 = text s) ∧ FieldValue m.2

theorem Flat.plain {data : Document} (flat : Flat data) : Plain data.value := by
  refine .dict ?_ ?_ ?_
  · intro m mem
    obtain ⟨n, _, rfl⟩ := List.mem_map.mp mem
    exact ⟨n.1, rfl⟩
  · rw [keys_strMembers]
    exact data.nodup.map fun _ _ => DictKey.str.inj
  · intro m mem
    obtain ⟨n, inside, rfl⟩ := List.mem_map.mp mem
    exact (flat n inside).2.plain

theorem items_eq {α : Type} {ms ns : List (Text × α)} (keys : ms.map Prod.fst = ns.map Prod.fst)
    (values : ∀ k v w, (k, v) ∈ ms → (k, w) ∈ ns → v = w) : ms = ns := by
  induction ms generalizing ns with
  | nil =>
    cases ns with
    | nil => rfl
    | cons n ns => cases keys
  | cons m ms ih =>
    cases ns with
    | nil => cases keys
    | cons n ns =>
      obtain ⟨key, keys⟩ := List.cons.inj keys
      have value : m.2 = n.2 := by
        apply values m.1 m.2 n.2
        · simp
        · simp [key]
      have rest := ih keys fun k v w memV memW =>
        values k v w (List.mem_cons_of_mem m memV) (List.mem_cons_of_mem n memW)
      rw [Prod.ext key value, rest]

theorem Flat.eq_of_same {d e : Document} (flat : Flat d) (keys : d.keys = e.keys)
    (same : SameUpToOrder d.value e.value) : d = e := by
  cases same with
  | dict _ values =>
    apply Dict.ext
    apply items_eq keys
    intro k v w memV memW
    have value := values (.str k) v w (mem_strMembers.mpr ⟨k, rfl, memV⟩)
      (mem_strMembers.mpr ⟨k, rfl, memW⟩)
    exact (flat _ memV).2.eq_of_same value

theorem Flat.bytes {data : Document} (flat : Flat data) :
    ∃ t bytes, canonicalDumps data.value = .ok t ∧ encode t = some bytes ∧
      canonicalBytes data.value = .ok bytes := by
  have encodes : Encodes data.value := by
    apply encodes_dict
    intro m mem
    obtain ⟨n, inside, rfl⟩ := List.mem_map.mp mem
    obtain ⟨⟨s, key⟩, field⟩ := flat n inside
    exact ⟨⟨s, congrArg _ key⟩, field.encodes⟩
  obtain ⟨t, dumped, chars⟩ := canonicalDumps_ok encodes
  have encoded := encode_of_characters chars
  refine ⟨t, _, dumped, encoded, ?_⟩
  simp only [canonicalBytes, dumped, Except.mapError, bind, Except.bind, encoded]
  rfl

/-- The bytes of a document determine its fields. -/
theorem Flat.eq_of_bytes {d e : Document} (flatD : Flat d) (flatE : Flat e)
    (keys : d.keys = e.keys) (same : canonicalBytes d.value = canonicalBytes e.value) : d = e := by
  obtain ⟨s, bytes, dumpedD, encodedD, bytesD⟩ := flatD.bytes
  obtain ⟨t, _, dumpedE, encodedE, bytesE⟩ := flatE.bytes
  rw [bytesD, bytesE] at same
  cases same
  have texts := encode_injective encodedD encodedE
  rw [texts, ← dumpedE] at dumpedD
  have faithful := canonicalDumps_faithful (fun _ => .nan) ⟨d.value, flatD.plain⟩ ⟨e.value, flatE.plain⟩
  exact flatD.eq_of_same keys (faithful.2.mp dumpedD)

theorem modelDump_flat (f : Fields) : Flat f.modelDump := by
  intro m mem
  simp only [Fields.modelDump, List.mem_cons, List.not_mem_nil, or_false] at mem
  rcases mem with rfl | rfl | rfl | rfl | rfl | rfl | rfl | rfl | rfl | rfl | rfl
  all_goals exact ⟨⟨_, rfl⟩, by constructor⟩

def content (prereg : PreRegistration) : Document := canonicalPayload prereg.modelDump

theorem content_flat (prereg : PreRegistration) : Flat (content prereg) := by
  intro m mem
  exact modelDump_flat prereg.toFields m (List.mem_filter.mp mem).1

theorem payload_keys {d e : Document} (same : d.keys = e.keys) :
    (canonicalPayload d).keys = (canonicalPayload e).keys := by
  have filtered : ∀ data : Document,
      (canonicalPayload data).keys = data.keys.filter fun k => k ≠ text "lock_hash" := by
    intro data
    simp [Dict.keys, canonicalPayload, List.filter_map, Function.comp_def]
  rw [filtered, filtered, same]

theorem content_keys (p q : PreRegistration) : (content p).keys = (content q).keys := by
  have same : p.modelDump.keys = q.modelDump.keys := by
    simp [Dict.keys, Fields.modelDump]
  unfold content
  exact payload_keys same

theorem lockHash_of_dump {p q : Fields} (same : p.modelDump = q.modelDump) :
    p.lockHash = q.lockHash := by
  have held : ∀ f : Fields, f.modelDump.get (text "lock_hash") = some (.str (text f.lockHash)) := by
    intro f
    simp [Fields.modelDump, Dict.get, text_eq_iff]
  have hashes := held p
  rw [same, held q] at hashes
  exact (text_injective (PyValue.str.inj (Option.some.inj hashes))).symm

/- Putting a hash in its place is dumping the record that has this hash. -/
theorem insert_lockHash (f : Fields) (lockHash : String) :
    f.modelDump.insert (text "lock_hash") (.str (text lockHash)) =
      { f with lockHash := lockHash }.modelDump := by
  apply Dict.ext
  simp [Fields.modelDump, Dict.insert, Dict.keys, Dict.modify, Dict.modifyItem, text_eq_iff]

theorem content_lockHash (f : Fields) (lockHash : String) :
    canonicalPayload { f with lockHash := lockHash }.modelDump = canonicalPayload f.modelDump := by
  apply Dict.ext
  simp [Fields.modelDump, canonicalPayload, text_eq_iff]

theorem errors_eq_nil {f : Fields} : f.errors = [] ↔ ∀ check ∈ f.checks, check.2 = true := by
  simp [Fields.errors, List.filterMap_eq_nil_iff]

/- Only the last check looks at the hash. -/
theorem errors_lockHash {f : Fields} {lockHash : String} (valid : f.errors = [])
    (hex : isHexDigest lockHash = true) : { f with lockHash := lockHash }.errors = [] := by
  rw [errors_eq_nil] at valid ⊢
  simp only [Fields.checks, List.forall_mem_cons] at valid ⊢
  obtain ⟨hypothesis, metric, threshold, days, plan, rule, _, _⟩ := valid
  exact ⟨hypothesis, metric, threshold, days, plan, rule, hex, by simp⟩

section Hashes
variable (host : Host)

/-- The record carries the hash of its own content. -/
def Sealed (prereg : PreRegistration) : Prop :=
  ∃ bytes, canonicalBytes (content prereg).value = .ok bytes ∧
    prereg.lockHash = host.sha256.hexdigest bytes

def NoCollision (p q : PreRegistration) : Prop :=
  ∀ a b, canonicalBytes (content p).value = .ok a → canonicalBytes (content q).value = .ok b →
    host.sha256.hexdigest a = host.sha256.hexdigest b → a = b

theorem computeLockHash_content {f : Fields} {bytes : Bytes}
    (encoded : canonicalBytes (canonicalPayload f.modelDump).value = .ok bytes) :
    computeLockHash host.sha256 f.modelDump = .ok (host.sha256.hexdigest bytes) := by
  rw [computeLockHash, canonicalHash, encoded]
  rfl

theorem verifyHash_cases (prereg : PreRegistration) :
    (verifyHash host prereg = .ok true ∧ Sealed host prereg) ∨
      (verifyHash host prereg = .ok false ∧ ¬ Sealed host prereg) := by
  obtain ⟨_, bytes, _, _, encoded⟩ := (content_flat prereg).bytes
  have checked : verifyHash host prereg =
      .ok (host.sha256.hexdigest bytes == prereg.lockHash) := by
    rw [verifyHash, computeLockHash_content host encoded]
    rfl
  rw [checked]
  by_cases same : prereg.lockHash = host.sha256.hexdigest bytes
  · left
    exact ⟨by simp [same], bytes, encoded, same⟩
  · right
    constructor
    · simp [Ne.symm same]
    · rintro ⟨other, encoded', hash⟩
      rw [encoded] at encoded'
      cases encoded'
      exact same hash

theorem verifyHash_sealed {prereg : PreRegistration} (sealed : Sealed host prereg) :
    verifyHash host prereg = .ok true := by
  rcases verifyHash_cases host prereg with ⟨passes, _⟩ | ⟨_, broken⟩
  · exact passes
  · exact absurd sealed broken

theorem verifyHash_not_sealed {prereg : PreRegistration} (broken : ¬ Sealed host prereg) :
    verifyHash host prereg = .ok false := by
  rcases verifyHash_cases host prereg with ⟨_, sealed⟩ | ⟨fails, _⟩
  · exact absurd sealed broken
  · exact fails

theorem not_sealed_of_content {p q : PreRegistration} (sealed : Sealed host p)
    (kept : q.lockHash = p.lockHash) (differs : content q ≠ content p)
    (injective : NoCollision host p q) : ¬ Sealed host q := by
  rintro ⟨b, encodedQ, hashQ⟩
  obtain ⟨a, encodedP, hashP⟩ := sealed
  have digests : host.sha256.hexdigest a = host.sha256.hexdigest b := by
    rw [← hashP, ← kept, hashQ]
  have same := injective a b encodedP encodedQ digests
  rw [same, ← encodedQ] at encodedP
  exact differs (Flat.eq_of_bytes (content_flat q) (content_flat p) (content_keys q p)
    encodedP.symm)

end Hashes

section Create
variable {host : Host} {id : Uuid} {now : Timestamp}
  {verticalTitle hypothesis primaryMetric analysisPlan stoppingRule : String}
  {primaryThreshold : Decimal} {measurementWindowDays : ℤ} {table table' : Table}
  {prereg : PreRegistration}

/-- Validating what a record was dumped to gives a record that dumps to the same. -/
def DumpsBack (host : Host) : Prop :=
  ∀ p q : PreRegistration, host.modelValidate p.modelDump.value = .ok q →
    q.modelDump = p.modelDump

theorem validate_ok {f : Fields} (validated : f.validate = .ok prereg) : prereg.toFields = f := by
  unfold Fields.validate at validated
  split at validated
  · cases validated
    rfl
  · cases validated

theorem insertRow_ok {row : PreRegistrationRow} (inserted : insertRow host row table = .ok table') :
    table' = table ++ [row] ∧ ∀ other ∈ table, other.id ≠ row.id := by
  unfold insertRow at inserted
  split at inserted
  · next accepted => exact ⟨(Except.ok.inj inserted).symm, accepted.2⟩
  · cases inserted

theorem create_spec (dumpsBack : DumpsBack host)
    (created : create host id now verticalTitle hypothesis primaryMetric primaryThreshold
      measurementWindowDays analysisPlan stoppingRule table = .ok (prereg, table')) :
    Sealed host prereg ∧ host.modelValidate prereg.modelDump.value = .ok prereg ∧
      table' = table ++ [rowOf prereg] ∧ ∀ other ∈ table, other.id ≠ prereg.id.str := by
  obtain ⟨provisional, validated, created⟩ := ok_of_bind created
  obtain ⟨lockHash, hashed, created⟩ := ok_of_bind created
  obtain ⟨stored, attached, created⟩ := ok_of_bind created
  obtain ⟨inserted, put, created⟩ := ok_of_bind created
  cases created
  obtain ⟨_, bytes, _, _, encoded⟩ := (content_flat provisional).bytes
  rw [computeLockHash_content host encoded] at hashed
  cases hashed
  have hex := hexdigest_fits host.sha256 bytes
  -- the document that is validated is the dump of the record with its hash
  let sealed : PreRegistration :=
    ⟨{ provisional.toFields with lockHash := host.sha256.hexdigest bytes },
      errors_lockHash provisional.valid hex⟩
  rw [insert_lockHash] at attached
  have dumped : prereg.modelDump = sealed.modelDump := dumpsBack sealed prereg attached
  have same : content prereg = content provisional := by
    rw [content, dumped]
    exact content_lockHash provisional.toFields _
  refine ⟨⟨bytes, ?_, lockHash_of_dump dumped⟩, ?_, insertRow_ok put⟩
  · rw [same]
    exact encoded
  · rw [dumped]
    exact attached

end Create

theorem create_ok {host : Host} {f : Fields} {provisional prereg : PreRegistration}
    {table table' : Table} {lockHash : String} (fresh : f.locked = true ∧ f.lockHash = placeholder)
    (validated : f.validate = .ok provisional)
    (hashed : computeLockHash host.sha256 provisional.modelDump = .ok lockHash)
    (attached : host.modelValidate (Document.value
      { provisional.toFields with lockHash := lockHash }.modelDump) = .ok prereg)
    (put : insertRow host (rowOf prereg) table = .ok table') :
    create host f.id f.createdAt f.verticalTitle f.hypothesis f.primaryMetric f.primaryThreshold
      f.measurementWindowDays f.analysisPlan f.stoppingRule table = .ok (prereg, table') := by
  have draft : (⟨f.id, f.createdAt, f.verticalTitle, f.hypothesis, f.primaryMetric,
      f.primaryThreshold, f.measurementWindowDays, f.analysisPlan, f.stoppingRule, true,
      placeholder⟩ : Fields) = f := by
    rw [← fresh.1, ← fresh.2]
  rw [create, draft]
  simp only [validated, hashed, insert_lockHash, attached, put, bind, Except.bind]
  rfl

theorem dump_of_written {p q : Fields}
    (same : written p.modelDump.value = written q.modelDump.value) : p.modelDump = q.modelDump := by
  have flat := modelDump_flat p
  have keys : p.modelDump.keys = q.modelDump.keys := by
    simp [Dict.keys, Fields.modelDump]
  exact flat.eq_of_same keys (same_of_written flat.plain (modelDump_flat q).plain same)

/-- The records that were validated once are taken again, and no other document is. -/
def validateKnown (known : List PreRegistration) (payload : PyValue) :
    Except PreregError PreRegistration :=
  match known.find? fun p => written payload = written p.modelDump.value with
  | some p => .ok p
  | none => .error (.validationError [])

theorem validateKnown_behind {p : PreRegistration} (front back : List PreRegistration)
    (others : ∀ q ∈ front, written p.modelDump.value ≠ written q.modelDump.value) :
    validateKnown (front ++ p :: back) p.modelDump.value = .ok p := by
  have skipped : (front.find? fun q => written p.modelDump.value = written q.modelDump.value) =
      none := by
    rw [List.find?_eq_none]
    intro q mem
    simpa using others q mem
  simp [validateKnown, List.find?_append, skipped]

theorem validateKnown_dumpsBack (sha256 : Sha256) (known : List PreRegistration)
    (columnsTake : PreRegistrationRow → Bool) :
    DumpsBack ⟨sha256, validateKnown known, columnsTake⟩ := by
  intro p q validated
  simp only [validateKnown] at validated
  split at validated
  · next found =>
    cases validated
    have same : written p.modelDump.value = written q.modelDump.value := by
      simpa using List.find?_some found
    exact (dump_of_written same).symm
  · cases validated

def badgeFields (threshold : ℕ) (lockHash : String) : Fields where
  id := ⟨0x2a⟩
  createdAt := ⟨"2026-04-18T00:00:00Z"⟩
  verticalTitle := "Price badge"
  hypothesis := "Indie developers will pay for a small price badge widget."
  primaryMetric := "monthly_recurring_revenue_usd"
  primaryThreshold := .ofNat threshold
  measurementWindowDays := 30
  analysisPlan := "Count paid subscriptions on day 30 through the payment API, net of refunds, " ++
    "and compare with the threshold."
  stoppingRule := "Stop if day-30 revenue is below the threshold."
  locked := true
  lockHash := lockHash

def badgeContent (threshold : ℕ) : Document :=
  canonicalPayload (badgeFields threshold placeholder).modelDump

theorem badgeContent_eq (threshold : ℕ) (lockHash : String) :
    canonicalPayload (badgeFields threshold lockHash).modelDump = badgeContent threshold :=
  content_lockHash (badgeFields threshold placeholder) lockHash

theorem badgeContent_differs : badgeContent 50 ≠ badgeContent 500 := by
  intro same
  have thresholds : ∀ n, (badgeContent n).get (text "primary_threshold") =
      some (.str (text (Decimal.ofNat n).str)) := by
    intro n
    simp [badgeContent, badgeFields, canonicalPayload, Fields.modelDump, Dict.get, text_eq_iff]
  have equal := thresholds 50
  rw [same, thresholds 500] at equal
  have texts := text_injective (PyValue.str.inj (Option.some.inj equal))
  exact absurd texts (by decide)

def badgeDigest : String := "1ff0ac6f3e198b5d77d0ff79824beddfa7e7ad8a4dfdd1eb4762dddaf71990d6"

def loweredDigest : String := "e6b5e6be85af6e498d248bb8fdc6d8d7530d35d3675c72707af7a3cbb99354b0"

def contentDigest (bytes : Bytes) : String :=
  if canonicalBytes (badgeContent 500).value = .ok bytes then badgeDigest
  else if canonicalBytes (badgeContent 50).value = .ok bytes then loweredDigest
  else placeholder

def contentSha256 : Sha256 where
  hexdigest := contentDigest
  hex := by
    intro bytes
    apply hex_of_all
    unfold contentDigest
    split
    · decide +kernel
    · split <;> decide +kernel

theorem badgeFields_valid {threshold : ℕ} {lockHash : String}
    (positive : isPositive (.ofNat threshold) = true) (hex : isHexDigest lockHash = true) :
    (badgeFields threshold lockHash).errors = [] := by
  have one : (badgeFields 1 placeholder).errors = [] := by decide +kernel
  rw [errors_eq_nil] at one ⊢
  simp only [Fields.checks, List.forall_mem_cons] at one ⊢
  obtain ⟨hypothesis, metric, _, days, plan, rule, _, _⟩ := one
  exact ⟨hypothesis, metric, positive, days, plan, rule, hex, by simp⟩

def badgeDraft : PreRegistration :=
  ⟨badgeFields 500 placeholder, badgeFields_valid (by decide) (by decide)⟩

def badge : PreRegistration :=
  ⟨badgeFields 500 badgeDigest, badgeFields_valid (by decide) (by decide)⟩

def loweredBadge : PreRegistration :=
  ⟨badgeFields 50 badgeDigest, badgeFields_valid (by decide) (by decide)⟩

def resealedBadge : PreRegistration :=
  ⟨badgeFields 50 loweredDigest, badgeFields_valid (by decide) (by decide)⟩

def badgeHost : Host where
  sha256 := contentSha256
  modelValidate := validateKnown [badge, loweredBadge, resealedBadge]
  columnsTake := fun _ => true

theorem badge_dumpsBack : DumpsBack badgeHost := validateKnown_dumpsBack _ _ _

theorem badge_content : content badge = badgeContent 500 := badgeContent_eq 500 badgeDigest

theorem lowered_content : content loweredBadge = badgeContent 50 := badgeContent_eq 50 badgeDigest

theorem resealed_content : content resealedBadge = badgeContent 50 :=
  badgeContent_eq 50 loweredDigest

theorem badge_digest {bytes : Bytes}
    (encoded : canonicalBytes (badgeContent 500).value = .ok bytes) :
    contentDigest bytes = badgeDigest := by
  rw [contentDigest, if_pos encoded]

theorem lowered_digest {bytes : Bytes}
    (encoded : canonicalBytes (badgeContent 50).value = .ok bytes) :
    contentDigest bytes = loweredDigest := by
  rw [contentDigest, if_neg, if_pos encoded]
  intro genuine
  have flat := content_flat resealedBadge
  have flat' := content_flat badge
  have keys := content_keys resealedBadge badge
  rw [resealed_content] at flat keys
  rw [badge_content] at flat' keys
  exact badgeContent_differs (Flat.eq_of_bytes flat flat' keys (encoded.trans genuine.symm))

theorem lowered_differs : content loweredBadge ≠ content badge := by
  rw [lowered_content, badge_content]
  exact badgeContent_differs

theorem badge_validates (payload : PyValue) : badgeHost.modelValidate payload =
    validateKnown [badge, loweredBadge, resealedBadge] payload := rfl

theorem badge_hexdigest (bytes : Bytes) :
    badgeHost.sha256.hexdigest bytes = contentDigest bytes := by
  simp only [badgeHost, contentSha256]

theorem badge_known : badgeHost.modelValidate badge.modelDump.value = .ok badge := by
  rw [badge_validates]
  exact validateKnown_behind [] _ (by simp)

theorem lowered_known :
    badgeHost.modelValidate loweredBadge.modelDump.value = .ok loweredBadge := by
  rw [badge_validates]
  apply validateKnown_behind [badge]
  intro other mem same
  obtain rfl := List.mem_singleton.mp mem
  exact lowered_differs (congrArg canonicalPayload (dump_of_written same))

theorem resealed_known :
    badgeHost.modelValidate resealedBadge.modelDump.value = .ok resealedBadge := by
  rw [badge_validates]
  apply validateKnown_behind [badge, loweredBadge]
  intro other mem same
  have hashes : resealedBadge.lockHash = other.lockHash := lockHash_of_dump (dump_of_written same)
  simp only [List.mem_cons, List.not_mem_nil, or_false] at mem
  rcases mem with rfl | rfl
  · exact absurd hashes (by decide)
  · exact absurd hashes (by decide)

theorem badge_created : create badgeHost ⟨0x2a⟩ ⟨"2026-04-18T00:00:00Z"⟩ badgeDraft.verticalTitle
    badgeDraft.hypothesis badgeDraft.primaryMetric (.ofNat 500) 30 badgeDraft.analysisPlan
    badgeDraft.stoppingRule [] = .ok (badge, [rowOf badge]) := by
  have validated : (badgeFields 500 placeholder).validate = .ok badgeDraft := by
    have valid : (badgeFields 500 placeholder).errors = [] := badgeDraft.valid
    rw [Fields.validate, dif_pos valid]
    rfl
  obtain ⟨_, bytes, _, _, encoded⟩ := (content_flat badgeDraft).bytes
  rw [content] at encoded
  have hashed := computeLockHash_content badgeHost encoded
  rw [badge_hexdigest, badge_digest encoded] at hashed
  exact create_ok ⟨rfl, rfl⟩ validated hashed badge_known rfl

theorem lowered_noCollision : NoCollision badgeHost badge loweredBadge := by
  intro a b encoded encoded' digests
  rw [badge_content] at encoded
  rw [lowered_content] at encoded'
  rw [badge_hexdigest, badge_hexdigest, badge_digest encoded, lowered_digest encoded'] at digests
  exact absurd digests (by decide)

end Preregistration
