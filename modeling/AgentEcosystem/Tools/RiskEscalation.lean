import AgentEcosystem.CodeBuilder.Builder
import AgentEcosystem.Tools.ToolRegistry

/-!
What becomes of a risk tier between the request and the registry. The builder
signs the request it escalated; the registry checks the request it is shown,
and the artifact does not say which of the two it was built from.
-/
namespace ToolRegistry
open AgentSchemas CanonicalJson CodeBuilder Raising UnicodeText

section Builds
variable (host : Host) (fresh : Fresh) {req : BuildRequest} (runner : SandboxRunner)
  (targetRoot : String) (files : Files)

/-- Shown the request that was sent, the registry refuses the built tool exactly
    when that request already was of high risk. -/
theorem built_refused_iff {out : BuildOutcome} {a : ToolArtifact}
    (built : (outcome (build host fresh req runner targetRoot) files).1 = .ok out)
    (artifact : out.artifact = some a) (now : Timestamp) (registry : Registry) :
    Refused a req now registry ↔ req.riskTier = .high := by
  have unreviewed := ensures_of_ok (build_unreviewed host fresh req runner targetRoot files) built
  obtain ⟨sameRequest, noVerdict⟩ := unreviewed a artifact
  rw [refused_iff]
  constructor
  · rintro (mismatch | ⟨high, _⟩)
    · exact absurd sameRequest mismatch
    · exact high
  · intro high
    exact .inr ⟨high, noVerdict⟩

def Enforced (req : BuildRequest) (a : ToolArtifact) (now : Timestamp) (registry : Registry) :
    Prop :=
  ∀ toolPy testPy, render req = .ok (toolPy, testPy) →
    (policyEscalate host.jsonDepth req toolPy).riskTier = .high → Refused a req now registry

def NothingToEscalate (req : BuildRequest) : Prop :=
  req.riskTier = .high ∨ ∀ toolPy testPy, render req = .ok (toolPy, testPy) →
    NoRedFlag host.jsonDepth req toolPy

/-- The escalation survives to the registry exactly when there was none. -/
theorem escalation_enforced_iff {out : BuildOutcome} {a : ToolArtifact}
    (built : (outcome (build host fresh req runner targetRoot) files).1 = .ok out)
    (artifact : out.artifact = some a) (now : Timestamp) (registry : Registry) :
    Enforced host req a now registry ↔ NothingToEscalate host req := by
  have refused := built_refused_iff host fresh runner targetRoot files built artifact now registry
  constructor
  · intro enforced
    by_cases high : req.riskTier = .high
    · exact .inl high
    · refine .inr fun toolPy testPy rendered => ?_
      by_contra flagged
      have escalated := (policyEscalate_high_iff host.jsonDepth req toolPy).mpr (.inr flagged)
      exact high (refused.mp (enforced toolPy testPy rendered escalated))
  · rintro (high | clean) toolPy testPy rendered escalated
    · exact refused.mpr high
    · rcases (policyEscalate_high_iff host.jsonDepth req toolPy).mp escalated with high | flagged
      · exact refused.mpr high
      · exact absurd (clean toolPy testPy rendered) flagged

end Builds

def piiRequest : BuildRequest where
  id := ⟨0x1d⟩
  requestedBy := .mother
  purpose := "Render a product pricing badge for the newsletter vertical."
  toolName := "price_badge"
  inputSchemaJson :=
    "\x7b\"type\": \"object\", \"properties\": \x7b\"email\": \x7b\"type\": \"string\"\x7d\x7d\x7d"
  outputSchemaJson := "\x7b\"type\": \"object\"\x7d"
  networkRequired := false
  allowedDomains := []
  riskTier := .low
  maxWallSeconds := 300
  createdAt := ⟨"2026-04-18T00:00:00Z"⟩
  purpose_fits := by decide
  toolName_fits := by decide
  allowedDomains_fit := by decide
  maxWallSeconds_fits := by decide

def highRequest : BuildRequest := { piiRequest with riskTier := .high }

/-- The digests of the two artifacts built below, whose signed bytes differ in
    length. -/
def runnableDigest (bytes : Bytes) : String :=
  if bytes.length = 1352 then "4ca6c6a33c77ac136c00e3d04867b8c81c2854aa0f7339104cc8c5c88d0c203e"
  else if bytes.length = 1353 then
    "837f8bda17dd0ee7e9569b2067890dbac2cad8e6a90c871bfdb9defa538b2ed8"
  else "0000000000000000000000000000000000000000000000000000000000000000"

def runnableSha256 : Sha256 where
  hexdigest := runnableDigest
  hex := by
    intro bytes
    apply hex_of_all
    unfold runnableDigest
    split
    · decide +kernel
    · split
      · decide +kernel
      · exact zeros_hex

def runnableHost : Host := ⟨asciiData, runnableSha256, 1000⟩

def runnableFresh : Fresh := ⟨⟨0x2a⟩, ⟨0x2b⟩, ⟨"2026-04-18T00:05:00Z"⟩⟩

def passingResult : SandboxResult :=
  ⟨0, "2 passed in 0.01s\nTOTAL  100%\n", "", .finite (1 / 10) (text "0.1"), "ok"⟩

def passingRunner : SandboxRunner := fun _ _ _ => passingResult

theorem passingRunner_passes : Passes runnableHost passingRunner := by
  have finished : passingResult.reason ≠ "timeout" ∧ passingResult.exitCode = 0 := by decide
  have validated : validate asciiData (text passingResult.stdout) (.finite 0) =
      .ok ⟨true, [text "test_1", text "test_2"], 0, .finite 100, text passingResult.stdout⟩ := by
    decide +kernel
  constructor
  · intro _ _ _
    exact finished
  · intro _ _ _
    exact ⟨_, validated, rfl, by decide +kernel⟩

def noFiles : Files := fun _ => none

theorem passing_artifact (req : BuildRequest) : ∃ out a,
    (outcome (build runnableHost runnableFresh req passingRunner "generated") noFiles).1 = .ok out ∧
      out.artifact = some a := by
  obtain ⟨out, built, a, artifact⟩ := returns_of_ensures
    (build_passes passingRunner_passes runnableFresh req "generated" noFiles)
  exact ⟨out, a, built, artifact⟩

theorem escalation_enforced_high : ∃ out a,
    (outcome (build runnableHost runnableFresh highRequest passingRunner "generated")
      noFiles).1 = .ok out ∧ out.artifact = some a ∧
    Enforced runnableHost highRequest a runnableFresh.now fun _ => none := by
  obtain ⟨out, a, built, artifact⟩ := passing_artifact highRequest
  refine ⟨out, a, built, artifact, ?_⟩
  apply (escalation_enforced_iff runnableHost runnableFresh passingRunner "generated" noFiles built
    artifact _ _).mpr
  exact .inl rfl

/-- A request for an e-mail address is escalated, and its tool registers all the
    same when the request comes back as it was sent. -/
theorem pii_tool_registers : ∃ out a,
    (outcome (build runnableHost runnableFresh piiRequest passingRunner "generated")
      noFiles).1 = .ok out ∧ out.artifact = some a ∧
    a.ethicsVerdictId = none ∧
    ¬ Enforced runnableHost piiRequest a runnableFresh.now fun _ => none := by
  obtain ⟨out, a, built, artifact⟩ := passing_artifact piiRequest
  have unreviewed := ensures_of_ok (build_unreviewed runnableHost runnableFresh piiRequest
    passingRunner "generated" noFiles) built
  refine ⟨out, a, built, artifact, (unreviewed a artifact).2, ?_⟩
  intro enforced
  have pii : hasPiiField 1000 piiRequest.inputSchemaJson = true := by decide +kernel
  have escalated : ∀ toolPy,
      (policyEscalate runnableHost.jsonDepth piiRequest toolPy).riskTier = .high := by
    intro toolPy
    apply (policyEscalate_high_iff _ _ _).mpr
    right
    rintro ⟨_, noPii, _⟩
    exact absurd (pii.symm.trans noPii) nofun
  have refused := enforced _ _ (render_ok piiRequest) (escalated _)
  rw [built_refused_iff runnableHost runnableFresh passingRunner "generated" noFiles built artifact]
    at refused
  cases refused

end ToolRegistry
