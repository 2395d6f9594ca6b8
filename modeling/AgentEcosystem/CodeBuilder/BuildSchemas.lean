import AgentEcosystem.Preregistration.CanonicalJson
import AgentEcosystem.Schemas

/-!
What a build takes and gives: the request, the signed artifact and the failure.
A value of these types has passed its validation.
-/
namespace CodeBuilder
open AgentSchemas CanonicalJson UnicodeText

inductive RiskTier where
  | low | medium | high
  deriving DecidableEq, Repr

def RiskTier.value : RiskTier → String
  | .low => "low"
  | .medium => "medium"
  | .high => "high"

def isLower (c : Char) : Bool := 'a' ≤ c && c ≤ 'z'

/-- `^[a-z][a-z0-9_]{2,48}$` -/
def isToolName (s : String) : Bool :=
  match s.toList with
  | [] => false
  | c :: rest => isLower c && decide (2 ≤ rest.length ∧ rest.length ≤ 48) &&
      rest.all fun c => isLower c || c.isDigit || c == '_'

structure BuildRequest where
  id : Uuid
  requestedBy : AgentTier
  purpose : String
  toolName : String
  inputSchemaJson : String
  outputSchemaJson : String
  networkRequired : Bool
  allowedDomains : List String
  riskTier : RiskTier
  maxWallSeconds : ℕ
  createdAt : Timestamp
  purpose_fits : 20 ≤ purpose.length ∧ purpose.length ≤ 1000
  toolName_fits : isToolName toolName = true
  allowedDomains_fit : allowedDomains.length ≤ 20
  maxWallSeconds_fits : 1 ≤ maxWallSeconds ∧ maxWallSeconds ≤ 300

/-- `req.model_dump(mode="json")` -/
def BuildRequest.modelDump (req : BuildRequest) : PyValue :=
  .dict [(.str (text "id"), .str (text req.id.str)),
    (.str (text "requested_by"), .str (text req.requestedBy.value)),
    (.str (text "purpose"), .str (text req.purpose)),
    (.str (text "tool_name"), .str (text req.toolName)),
    (.str (text "input_schema_json"), .str (text req.inputSchemaJson)),
    (.str (text "output_schema_json"), .str (text req.outputSchemaJson)),
    (.str (text "network_required"), .bool req.networkRequired),
    (.str (text "allowed_domains"), .list (req.allowedDomains.map fun d => .str (text d))),
    (.str (text "risk_tier"), .str (text req.riskTier.value)),
    (.str (text "max_wall_seconds"), .int req.maxWallSeconds),
    (.str (text "created_at"), .str (text req.createdAt.iso))]

/-- A number of the floating-point type that is not negative. -/
inductive Float64 where
  | finite (value : ℚ)
  | infinity
  deriving DecidableEq, Repr

inductive SignedBy where
  | codeBuilderV3
  deriving DecidableEq, Repr

structure ToolArtifact where
  id : Uuid
  buildRequestId : Uuid
  sha256 : String
  codePath : String
  testPath : String
  passedTests : List Text
  coveragePct : ℚ
  signedBy : SignedBy
  signedAt : Timestamp
  ethicsVerdictId : Option Uuid
  sha256_fits : isHexDigest sha256 = true
  coveragePct_fits : 0 ≤ coveragePct ∧ coveragePct ≤ 100

inductive FailureReason where
  | testsFailed | sandboxTimeout | policyViolation | schemaInvalid | coverageBelowThreshold
  | lintFailed
  deriving DecidableEq, Repr

def detailMaxLength : ℕ := 4000

structure BuildFailure where
  id : Uuid
  buildRequestId : Uuid
  reason : FailureReason
  detail : String
  attempts : ℕ
  detail_fits : detail.length ≤ detailMaxLength
  attempts_fit : 1 ≤ attempts ∧ attempts ≤ 3

inductive BuildError where
  | validationError (fields : List String)
  | canonicalError (e : CanonicalError)
  | unicodeEncodeError
  /-- An integer is too long to be converted from or to text. -/
  | valueError
  deriving DecidableEq, Repr

def BuildFailure.validate (id buildRequestId : Uuid) (reason : FailureReason) (detail : String)
    (attempts : ℕ) : Except BuildError BuildFailure :=
  if hd : detail.length ≤ detailMaxLength then
    if ha : 1 ≤ attempts ∧ attempts ≤ 3 then
      .ok ⟨id, buildRequestId, reason, detail, attempts, hd, ha⟩
    else .error (.validationError ["attempts"])
  else .error (.validationError
    ("detail" :: if 1 ≤ attempts ∧ attempts ≤ 3 then [] else ["attempts"]))

def ToolArtifact.validate (id buildRequestId : Uuid) (sha256 codePath testPath : String)
    (passedTests : List Text) (coveragePct : Float64) (signedBy : SignedBy) (signedAt : Timestamp) :
    Except BuildError ToolArtifact :=
  let shaErrors := if isHexDigest sha256 = true then [] else ["sha256"]
  match coveragePct with
  | .finite coverage =>
    if hc : 0 ≤ coverage ∧ coverage ≤ 100 then
      if hs : isHexDigest sha256 = true then
        .ok ⟨id, buildRequestId, sha256, codePath, testPath, passedTests, coverage, signedBy,
          signedAt, none, hs, hc⟩
      else .error (.validationError shaErrors)
    else .error (.validationError (shaErrors ++ ["coverage_pct"]))
  | .infinity => .error (.validationError (shaErrors ++ ["coverage_pct"]))

end CodeBuilder
