import AgentEcosystem.CodeBuilder.Rendering
import AgentEcosystem.CodeBuilder.Validator
import AgentEcosystem.Semantics.Raising
import Mathlib.Logic.Function.Basic

/-!
A build: render, escalate by policy, sign, run in the sandbox, validate, write.
The escalated request is what is signed; the caller keeps the one it sent.
-/
namespace CodeBuilder
open AgentSchemas CanonicalJson JsonText NearestRounding Raising UnicodeText

/-- What a build uses from the interpreter it runs in. -/
structure Host where
  characters : CharacterData
  sha256 : Sha256
  jsonDepth : ℕ

structure Fresh where
  artifactId : Uuid
  failureId : Uuid
  now : Timestamp

def forbiddenImports : List String := ["subprocess", "os.system", "socket", "ctypes", "pickle"]

def piiFields : List String := ["email", "ssn", "passport", "dob", "address"]

def hasForbiddenImport (src : Text) : Bool :=
  forbiddenImports.any fun m =>
    contains (text ("import " ++ m)) src || contains (text ("from " ++ m)) src

/-- `p in props`; a number, a boolean and `None` are no containers. -/
def inContainer (p : Text) : Json → Option Bool
  | .obj members => some (members.any fun m => m.1 == p)
  | .arr elements => some (elements.any fun
      | .str s => s == p
      | _ => false)
  | .str s => some (contains p s)
  | _ => none

/-- A schema that cannot be read or searched names no field. -/
def hasPiiField (depth : ℕ) (schemaJson : String) : Bool :=
  match loads depth (text schemaJson) with
  | .ok (.obj members) =>
    match members.find? fun m => m.1 == text "properties" with
    | some (_, props) => piiFields.any fun p => (inContainer (text p) props).getD false
    | none => false
  | _ => false

def escalationReasons (depth : ℕ) (req : BuildRequest) (toolSource : Bytes) : List String :=
  (if hasForbiddenImport (decodeIgnore toolSource) then ["forbidden_import"] else []) ++
  (if hasPiiField depth req.inputSchemaJson then ["pii_field"] else []) ++
  (if req.networkRequired && req.allowedDomains.isEmpty then ["open_network"] else [])

def policyEscalate (depth : ℕ) (req : BuildRequest) (toolSource : Bytes) : BuildRequest :=
  if escalationReasons depth req toolSource ≠ [] ∧ req.riskTier ≠ .high then
    { req with riskTier := .high }
  else req

def computeArtifactSha (sha256 : Sha256) (toolPy testPy : Bytes) (req : BuildRequest) :
    Except BuildError String := do
  let canonical ← (canonicalDumps req.modelDump).mapError .canonicalError
  return sha256.hexdigest (toolPy ++ testPy ++ (← encoded canonical))

abbrev Files := String → Option Bytes

def writeBytes (path : String) (bytes : Bytes) : Raising BuildError Files Unit :=
  modify fun files => Function.update files path (some bytes)

def writeArtifactFiles (sha256 : Sha256) (targetRoot : String) (toolPy testPy : Bytes)
    (req : BuildRequest) : Raising BuildError Files (String × String × String) := do
  let sha ← attempt id (computeArtifactSha sha256 toolPy testPy req)
  let outDir := targetRoot ++ "/" ++ sha
  let toolPath := outDir ++ "/tool.py"
  let testPath := outDir ++ "/test_tool.py"
  writeBytes toolPath toolPy
  writeBytes testPath testPy
  return (toolPath, testPath, sha)

structure SandboxResult where
  exitCode : ℤ
  stdout : String
  stderr : String
  wallSeconds : PyFloat
  reason : String

abbrev SandboxRunner := Bytes → Bytes → ℕ → SandboxResult

inductive BuildStatus where
  | artifact | failure
  deriving DecidableEq, Repr

structure BuildOutcome where
  status : BuildStatus
  artifact : Option ToolArtifact := none
  failure : Option BuildFailure := none

/-- `str(n)` -/
def pythonInt (n : ℤ) : Except BuildError String :=
  if (Nat.toDigits 10 n.natAbs).length ≤ maxStrDigits then .ok (toString n) else .error .valueError

/-- `f"{x:.1f}"` -/
def oneDecimal : PyFloat → String
  | .finite value repr =>
    let tenths := (roundEven (10 * value)).natAbs
    (if repr.head? = some (ofChar '-') then "-" else "") ++ s!"{tenths / 10}.{tenths % 10}"
  | .infinite negative => if negative then "-inf" else "inf"
  | .nan => "nan"

/-- `s[:500]` -/
def excerpt (s : String) : String := String.ofList (s.toList.take 500)

def failed (fresh : Fresh) (req : BuildRequest) (reason : FailureReason) (detail : String) :
    Raising BuildError Files BuildOutcome := do
  let failure ← attempt id (BuildFailure.validate fresh.failureId req.id reason detail 1)
  return ⟨.failure, none, some failure⟩

def build (host : Host) (fresh : Fresh) (req : BuildRequest) (runner : SandboxRunner)
    (targetRoot : String) : Raising BuildError Files BuildOutcome := do
  let (toolPy, testPy) ← attempt id (render req)
  let req := policyEscalate host.jsonDepth req toolPy
  -- the digest names the scratch directory
  let _ ← attempt id (computeArtifactSha host.sha256 toolPy testPy req)
  let result := runner toolPy testPy req.maxWallSeconds
  if result.reason = "timeout" then
    failed fresh req .sandboxTimeout
      s!"wall={oneDecimal result.wallSeconds}s stderr={excerpt result.stderr}"
  else if result.exitCode ≠ 0 then do
    let code ← attempt id (pythonInt result.exitCode)
    let output := if result.stderr = "" then result.stdout else result.stderr
    failed fresh req .testsFailed s!"exit={code} {excerpt output}"
  else do
    let v ← attempt id (validate host.characters (text result.stdout) (.finite 0))
    if v.ok = false then
      failed fresh req (if v.failedTests ≠ 0 then .testsFailed else .coverageBelowThreshold)
        (excerpt result.stdout)
    else do
      let (toolPath, testPath, sha) ←
        writeArtifactFiles host.sha256 targetRoot toolPy testPy req
      let coverage := if v.coveragePct.le (.finite 0) then .finite 0 else v.coveragePct
      let artifact ← attempt id (ToolArtifact.validate fresh.artifactId req.id sha toolPath
        testPath v.passedTests coverage .codeBuilderV3 fresh.now)
      return ⟨.artifact, some artifact, none⟩

/-- What `build` makes of the result of the sandbox. -/
def settle (host : Host) (fresh : Fresh) (req : BuildRequest) (toolPy testPy : Bytes)
    (result : SandboxResult) (targetRoot : String) : Raising BuildError Files BuildOutcome := do
  if result.reason = "timeout" then
    failed fresh req .sandboxTimeout
      s!"wall={oneDecimal result.wallSeconds}s stderr={excerpt result.stderr}"
  else if result.exitCode ≠ 0 then do
    let code ← attempt id (pythonInt result.exitCode)
    let output := if result.stderr = "" then result.stdout else result.stderr
    failed fresh req .testsFailed s!"exit={code} {excerpt output}"
  else do
    let v ← attempt id (validate host.characters (text result.stdout) (.finite 0))
    if v.ok = false then
      failed fresh req (if v.failedTests ≠ 0 then .testsFailed else .coverageBelowThreshold)
        (excerpt result.stdout)
    else do
      let (toolPath, testPath, sha) ←
        writeArtifactFiles host.sha256 targetRoot toolPy testPy req
      let coverage := if v.coveragePct.le (.finite 0) then .finite 0 else v.coveragePct
      let artifact ← attempt id (ToolArtifact.validate fresh.artifactId req.id sha toolPath
        testPath v.passedTests coverage .codeBuilderV3 fresh.now)
      return ⟨.artifact, some artifact, none⟩

theorem modelDump_encodes (req : BuildRequest) : Encodes req.modelDump := by
  apply encodes_dict
  have domains : Encodes (.list (req.allowedDomains.map fun d => .str (text d))) := by
    apply encodes_list
    intro v mem
    obtain ⟨d, _, rfl⟩ := List.mem_map.mp mem
    exact encodes_str d
  simp only [List.forall_mem_cons, List.not_mem_nil, false_implies, implies_true, and_true]
  exact ⟨⟨⟨_, rfl⟩, encodes_str _⟩, ⟨⟨_, rfl⟩, encodes_str _⟩, ⟨⟨_, rfl⟩, encodes_str _⟩,
    ⟨⟨_, rfl⟩, encodes_str _⟩, ⟨⟨_, rfl⟩, encodes_str _⟩, ⟨⟨_, rfl⟩, encodes_str _⟩,
    ⟨⟨_, rfl⟩, encodes_bool _⟩, ⟨⟨_, rfl⟩, domains⟩, ⟨⟨_, rfl⟩, encodes_str _⟩,
    ⟨⟨_, rfl⟩, encodes_int _⟩, ⟨⟨_, rfl⟩, encodes_str _⟩⟩

theorem computeArtifactSha_ok (sha256 : Sha256) (toolPy testPy : Bytes) (req : BuildRequest) :
    ∃ bytes, computeArtifactSha sha256 toolPy testPy req = .ok (sha256.hexdigest bytes) := by
  obtain ⟨t, dumped, chars⟩ := canonicalDumps_ok (modelDump_encodes req)
  refine ⟨toolPy ++ testPy ++ t.flatMap encodeChar, ?_⟩
  rw [computeArtifactSha, dumped]
  change (do return sha256.hexdigest (toolPy ++ testPy ++ (← encoded t))) = _
  rw [encoded_characters chars]
  rfl

/-- A build renders and signs whatever it is asked for, so all turns on the sandbox. -/
theorem ensures_build {host : Host} {fresh : Fresh} {req : BuildRequest} {runner : SandboxRunner}
    {targetRoot : String} {files : Files} {returns : BuildOutcome → Files → Prop}
    {raises : BuildError → Files → Prop}
    (h : let toolPy := (toolSkeleton req).flatMap encodeChar
      let testPy := (testSkeleton req).flatMap encodeChar
      let escalated := policyEscalate host.jsonDepth req toolPy
      Ensures (settle host fresh escalated toolPy testPy
        (runner toolPy testPy escalated.maxWallSeconds) targetRoot) files returns raises) :
    Ensures (build host fresh req runner targetRoot) files returns raises := by
  have steps : build host fresh req runner targetRoot = (do
      let (toolPy, testPy) ← attempt id (render req)
      let escalated := policyEscalate host.jsonDepth req toolPy
      let _ ← attempt id (computeArtifactSha host.sha256 toolPy testPy escalated)
      settle host fresh escalated toolPy testPy (runner toolPy testPy escalated.maxWallSeconds)
        targetRoot) := rfl
  rw [steps, render_ok]
  apply ensures_bind
  apply ensures_attempt_ok
  obtain ⟨bytes, signed⟩ := computeArtifactSha_ok host.sha256
    ((toolSkeleton req).flatMap encodeChar) ((testSkeleton req).flatMap encodeChar)
    (policyEscalate host.jsonDepth req ((toolSkeleton req).flatMap encodeChar))
  dsimp only
  apply ensures_bind
  rw [signed]
  apply ensures_attempt_ok
  exact h

theorem ensures_written {sha256 : Sha256} {targetRoot : String} {toolPy testPy : Bytes}
    {req : BuildRequest} {files : Files} {returns : String × String × String → Files → Prop}
    {raises : BuildError → Files → Prop}
    (h : ∀ bytes t, let sha := sha256.hexdigest bytes
      returns (targetRoot ++ "/" ++ sha ++ "/tool.py", targetRoot ++ "/" ++ sha ++ "/test_tool.py",
        sha) t) :
    Ensures (writeArtifactFiles sha256 targetRoot toolPy testPy req) files returns raises := by
  obtain ⟨bytes, signed⟩ := computeArtifactSha_ok sha256 toolPy testPy req
  unfold writeArtifactFiles
  rw [signed]
  apply ensures_bind
  apply ensures_attempt_ok
  apply ensures_bind
  apply ensures_modify
  apply ensures_bind
  apply ensures_modify
  exact ensures_pure (h bytes _)

theorem policyEscalate_id (depth : ℕ) (req : BuildRequest) (toolSource : Bytes) :
    (policyEscalate depth req toolSource).id = req.id := by
  unfold policyEscalate
  split <;> rfl

structure NoRedFlag (depth : ℕ) (req : BuildRequest) (toolSource : Bytes) : Prop where
  noForbiddenImport : hasForbiddenImport (decodeIgnore toolSource) = false
  noPiiField : hasPiiField depth req.inputSchemaJson = false
  networkClosed : (req.networkRequired && req.allowedDomains.isEmpty) = false

theorem escalationReasons_nil_iff (depth : ℕ) (req : BuildRequest) (toolSource : Bytes) :
    escalationReasons depth req toolSource = [] ↔ NoRedFlag depth req toolSource := by
  have silent : ∀ (flag : Bool) (reason : String),
      (if flag = true then [reason] else []) = [] ↔ flag = false := by
    intro flag reason
    cases flag <;> simp
  unfold escalationReasons
  rw [List.append_eq_nil_iff, List.append_eq_nil_iff, silent, silent, silent]
  constructor
  · rintro ⟨⟨imports, pii⟩, network⟩
    exact ⟨imports, pii, network⟩
  · rintro ⟨imports, pii, network⟩
    exact ⟨⟨imports, pii⟩, network⟩

theorem policyEscalate_high_iff (depth : ℕ) (req : BuildRequest) (toolSource : Bytes) :
    (policyEscalate depth req toolSource).riskTier = .high ↔
      req.riskTier = .high ∨ ¬ NoRedFlag depth req toolSource := by
  rw [← escalationReasons_nil_iff, policyEscalate]
  by_cases escalated : escalationReasons depth req toolSource ≠ [] ∧ req.riskTier ≠ .high
  · rw [if_pos escalated]
    exact ⟨fun _ => .inr escalated.1, fun _ => rfl⟩
  · rw [if_neg escalated]
    constructor
    · exact .inl
    · rintro (high | flagged)
      · exact high
      · by_contra low
        exact escalated ⟨flagged, low⟩

theorem validate_artifact {id buildRequestId : Uuid} {sha256 codePath testPath : String}
    {passedTests : List Text} {coveragePct : Float64} {signedBy : SignedBy} {signedAt : Timestamp}
    {a : ToolArtifact}
    (h : ToolArtifact.validate id buildRequestId sha256 codePath testPath passedTests coveragePct
      signedBy signedAt = .ok a) :
    a.buildRequestId = buildRequestId ∧ a.ethicsVerdictId = none ∧ a.sha256 = sha256 ∧
      a.codePath = codePath := by
  unfold ToolArtifact.validate at h
  cases coveragePct with
  | finite coverage =>
    dsimp only at h
    split at h
    · split at h
      · cases h
        exact ⟨rfl, rfl, rfl, rfl⟩
      · cases h
    · cases h
  | infinity => cases h

theorem ensures_failed {fresh : Fresh} {req : BuildRequest} {reason : FailureReason}
    {detail : String} {files : Files} {returns : BuildOutcome → Files → Prop}
    {raises : BuildError → Files → Prop}
    (short : detail.length ≤ detailMaxLength → ∀ f, returns ⟨.failure, none, some f⟩ files)
    (long : detailMaxLength < detail.length → ∀ e, raises e files) :
    Ensures (failed fresh req reason detail) files returns raises := by
  apply ensures_bind
  unfold BuildFailure.validate
  split
  · next fits =>
    apply ensures_attempt_ok
    exact ensures_pure (short fits _)
  · next unfit =>
    apply ensures_attempt _ fun _ _ => long (not_le.mp unfit) _
    rintro _ nothing
    cases nothing

def Unreviewed (req : BuildRequest) (out : BuildOutcome) : Prop :=
  ∀ a, out.artifact = some a → a.buildRequestId = req.id ∧ a.ethicsVerdictId = none

theorem failed_unreviewed (fresh : Fresh) (req req' : BuildRequest) (reason : FailureReason)
    (detail : String) (files : Files) :
    Ensures (failed fresh req reason detail) files (fun out _ => Unreviewed req' out)
      (fun _ _ => True) := by
  apply ensures_failed
  · intro _ failure a isArtifact
    cases isArtifact
  · intro _ _
    trivial

theorem build_unreviewed (host : Host) (fresh : Fresh) (req : BuildRequest)
    (runner : SandboxRunner) (targetRoot : String) (files : Files) :
    Ensures (build host fresh req runner targetRoot) files (fun out _ => Unreviewed req out)
      (fun _ _ => True) := by
  apply ensures_build
  dsimp only
  unfold settle
  split
  · exact failed_unreviewed _ _ _ _ _ _
  · split
    · apply ensures_bind
      apply ensures_attempt _ fun _ _ => trivial
      intro _ _
      exact failed_unreviewed _ _ _ _ _ _
    · apply ensures_bind
      apply ensures_attempt _ fun _ _ => trivial
      intro v _
      split
      · exact failed_unreviewed _ _ _ _ _ _
      · apply ensures_bind
        apply ensures_written
        intro _ _
        apply ensures_bind
        apply ensures_attempt _ fun _ _ => trivial
        intro artifact validated
        obtain ⟨sameRequest, noVerdict, _⟩ := validate_artifact validated
        rw [policyEscalate_id] at sameRequest
        apply ensures_pure
        intro a isArtifact
        cases isArtifact
        exact ⟨sameRequest, noVerdict⟩

/- What the build makes of a coverage is not negative. -/
theorem validate_artifact_ok (id buildRequestId : Uuid) {sha256 : String}
    (hex : isHexDigest sha256 = true) (codePath testPath : String) (passedTests : List Text)
    {coverage : Float64} (bounded : coverage.le (.finite 100) = true) (signedAt : Timestamp) :
    ∃ a, ToolArtifact.validate id buildRequestId sha256 codePath testPath passedTests
      (if coverage.le (.finite 0) then .finite 0 else coverage) .codeBuilderV3 signedAt =
        .ok a := by
  have finite : ∃ q, (if coverage.le (.finite 0) then .finite 0 else coverage) =
      Float64.finite q ∧ 0 ≤ q ∧ q ≤ 100 := by
    by_cases low : coverage.le (.finite 0) = true
    · exact ⟨0, if_pos low, by norm_num⟩
    · rw [if_neg low]
      cases coverage with
      | finite q =>
        simp only [Float64.le, decide_eq_true_eq] at low bounded
        exact ⟨q, rfl, (not_le.mp low).le, bounded⟩
      | infinity => cases bounded
  obtain ⟨q, eq, range⟩ := finite
  rw [eq, ToolArtifact.validate, dif_pos range, dif_pos hex]
  exact ⟨_, rfl⟩

structure Passes (host : Host) (runner : SandboxRunner) : Prop where
  finished : ∀ toolPy testPy wall, (runner toolPy testPy wall).reason ≠ "timeout" ∧
    (runner toolPy testPy wall).exitCode = 0
  validated : ∀ toolPy testPy wall, ∃ v,
    validate host.characters (text (runner toolPy testPy wall).stdout) (.finite 0) = .ok v ∧
      v.ok = true ∧ v.coveragePct.le (.finite 100) = true

theorem build_passes {host : Host} {runner : SandboxRunner} (passes : Passes host runner)
    (fresh : Fresh) (req : BuildRequest) (targetRoot : String) (files : Files) :
    Ensures (build host fresh req runner targetRoot) files
      (fun out _ => ∃ a, out.artifact = some a) (fun _ _ => False) := by
  apply ensures_build
  dsimp only
  set toolPy := (toolSkeleton req).flatMap encodeChar
  set testPy := (testSkeleton req).flatMap encodeChar
  set escalated := policyEscalate host.jsonDepth req toolPy
  obtain ⟨notTimeout, exit⟩ := passes.finished toolPy testPy escalated.maxWallSeconds
  obtain ⟨v, validated, ok, bounded⟩ := passes.validated toolPy testPy escalated.maxWallSeconds
  unfold settle
  rw [if_neg notTimeout, if_neg (not_not_intro exit)]
  apply ensures_bind
  rw [validated]
  apply ensures_attempt_ok
  rw [if_neg (by rw [ok]; decide)]
  apply ensures_bind
  apply ensures_written
  intro bytes _
  apply ensures_bind
  obtain ⟨a, artifact⟩ := validate_artifact_ok fresh.artifactId escalated.id
    (hexdigest_fits host.sha256 bytes)
    (targetRoot ++ "/" ++ host.sha256.hexdigest bytes ++ "/tool.py")
    (targetRoot ++ "/" ++ host.sha256.hexdigest bytes ++ "/test_tool.py") v.passedTests bounded
    fresh.now
  rw [artifact]
  apply ensures_attempt_ok
  exact ensures_pure ⟨a, rfl⟩

end CodeBuilder
