import AgentEcosystem.Preregistration.CanonicalRoundTrip
import AgentEcosystem.Semantics.OrderedDict

/-!
Preregistrations: a record is dumped, hashed without its `lock_hash`, validated
again with the hash attached and inserted. The row keeps the hash in a column of
its own as well, and the check on a record that is read back looks at its payload.
-/
namespace Preregistration
open AgentSchemas CanonicalJson DecimalArithmetic OrderedDict UnicodeText

structure Fields where
  id : Uuid
  createdAt : Timestamp
  verticalTitle : String
  hypothesis : String
  primaryMetric : String
  primaryThreshold : Decimal
  measurementWindowDays : ℤ
  analysisPlan : String
  stoppingRule : String
  locked : Bool
  lockHash : String

def primaryMetrics : List String :=
  ["monthly_recurring_revenue_usd", "gross_margin_usd_30d", "paid_conversions_30d"]

def lengthWithin (low high : ℕ) (s : String) : Bool := low ≤ s.length && s.length ≤ high

def isPositive : Decimal → Bool
  | .finite x => FiniteDecimal.zero.lt x
  | _ => false

def Fields.checks (f : Fields) : List (String × Bool) :=
  [("hypothesis", lengthWithin 50 1000 f.hypothesis),
    ("primary_metric", primaryMetrics.contains f.primaryMetric),
    ("primary_threshold", isPositive f.primaryThreshold),
    ("measurement_window_days", decide (14 ≤ f.measurementWindowDays ∧
      f.measurementWindowDays ≤ 90)),
    ("analysis_plan", lengthWithin 100 3000 f.analysisPlan),
    ("stopping_rule", lengthWithin 30 500 f.stoppingRule),
    ("lock_hash", isHexDigest f.lockHash)]

def Fields.errors (f : Fields) : List String :=
  f.checks.filterMap fun check => if check.2 then none else some check.1

structure PreRegistration extends Fields where
  valid : toFields.errors = []

inductive PreregError where
  | validationError (fields : List String)
  | canonicalError (e : CanonicalError)
  | unicodeEncodeError
  | integrityError
  | noResultFound
  | multipleResultsFound
  | decimal (s : Signal)
  deriving DecidableEq, Repr

def Fields.validate (f : Fields) : Except PreregError PreRegistration :=
  if valid : f.errors = [] then .ok ⟨f, valid⟩ else .error (.validationError f.errors)

/-- A dict with string keys. -/
abbrev Document := Dict Text PyValue

def Document.value (data : Document) : PyValue := .dict (strMembers data.items)

/-- `json.loads(model.model_dump_json())` -/
def Fields.modelDump (f : Fields) : Document where
  items :=
    [(text "id", .str (text f.id.str)),
      (text "created_at", .str (text f.createdAt.iso)),
      (text "vertical_title", .str (text f.verticalTitle)),
      (text "hypothesis", .str (text f.hypothesis)),
      (text "primary_metric", .str (text f.primaryMetric)),
      (text "primary_threshold", .str (text f.primaryThreshold.str)),
      (text "measurement_window_days", .int f.measurementWindowDays),
      (text "analysis_plan", .str (text f.analysisPlan)),
      (text "stopping_rule", .str (text f.stoppingRule)),
      (text "locked", .bool f.locked),
      (text "lock_hash", .str (text f.lockHash))]
  nodup := by
    simp only [List.map_cons, List.map_nil]
    decide

def canonicalBytes (obj : PyValue) : Except PreregError Bytes := do
  match encode (← (canonicalDumps obj).mapError .canonicalError) with
  | some bytes => return bytes
  | none => throw .unicodeEncodeError

def canonicalHash (sha256 : Sha256) (obj : PyValue) : Except PreregError String := do
  return sha256.hexdigest (← canonicalBytes obj)

def canonicalPayload (data : Document) : Document where
  items := data.items.filter fun m => m.1 ≠ text "lock_hash"
  nodup := (List.filter_sublist.map Prod.fst).nodup data.nodup

def computeLockHash (sha256 : Sha256) (data : Document) : Except PreregError String :=
  canonicalHash sha256 (canonicalPayload data).value

structure PreRegistrationRow where
  id : String
  createdAt : Timestamp
  verticalTitle : String
  primaryMetric : String
  primaryThreshold : Decimal
  measurementWindowDays : ℤ
  locked : Bool
  lockHash : String
  payloadJson : PyValue

abbrev Table := List PreRegistrationRow

/-- What a registration takes from outside: the hash function, the validation of
    documents and the column types of the database. -/
structure Host where
  sha256 : Sha256
  modelValidate : PyValue → Except PreregError PreRegistration
  columnsTake : PreRegistrationRow → Bool

section Register
variable (host : Host)

/-- `session.add(row)` and `session.flush()`: an identifier is there once. -/
def insertRow (row : PreRegistrationRow) (table : Table) : Except PreregError Table :=
  if host.columnsTake row ∧ ∀ other ∈ table, other.id ≠ row.id then .ok (table ++ [row])
  else .error .integrityError

def rowOf (prereg : PreRegistration) : PreRegistrationRow where
  id := prereg.id.str
  createdAt := prereg.createdAt
  verticalTitle := prereg.verticalTitle
  primaryMetric := prereg.primaryMetric
  primaryThreshold := prereg.primaryThreshold
  measurementWindowDays := prereg.measurementWindowDays
  locked := true
  lockHash := prereg.lockHash
  payloadJson := prereg.modelDump.value

def placeholder : String := String.ofList (List.replicate 64 '0')

/-- `id` and `now` are what `uuid4()` and `utc_now()` give. -/
def create (id : Uuid) (now : Timestamp) (verticalTitle hypothesis primaryMetric : String)
    (primaryThreshold : Decimal) (measurementWindowDays : ℤ) (analysisPlan stoppingRule : String)
    (table : Table) : Except PreregError (PreRegistration × Table) := do
  let provisional ← Fields.validate ⟨id, now, verticalTitle, hypothesis, primaryMetric,
    primaryThreshold, measurementWindowDays, analysisPlan, stoppingRule, true, placeholder⟩
  let payload := provisional.modelDump
  let lockHash ← computeLockHash host.sha256 payload
  let hashed : Document := payload.insert (text "lock_hash") (.str (text lockHash))
  let prereg ← host.modelValidate hashed.value
  return (prereg, ← insertRow host (rowOf prereg) table)

def get (preregId : String) (table : Table) : Except PreregError PreRegistration :=
  match table.filter fun row => row.id = preregId with
  | [] => .error .noResultFound
  | [row] => host.modelValidate row.payloadJson
  | _ => .error .multipleResultsFound

def verifyHash (prereg : PreRegistration) : Except PreregError Bool := do
  return (← computeLockHash host.sha256 prereg.modelDump) == prereg.lockHash

structure AnalysisResult where
  preregistrationId : String
  metThreshold : Bool
  observedMetricValue : Decimal
  threshold : Decimal
  hashValid : Bool
  notes : String
  deriving DecidableEq, Repr

def notes (hashOk met : Bool) : String :=
  if !hashOk then "HASH DRIFT — prereg tampered with!"
  else if met then "threshold met" else "threshold missed"

def analyze (prereg : PreRegistration) (observedValue : Decimal) :
    Except PreregError AnalysisResult := do
  let hashOk ← verifyHash host prereg
  let met ← (prereg.primaryThreshold.le observedValue).mapError .decimal
  return ⟨prereg.id.str, met, observedValue, prereg.primaryThreshold, hashOk,
    notes hashOk met⟩

end Register

end Preregistration
