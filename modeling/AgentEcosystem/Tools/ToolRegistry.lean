import AgentEcosystem.CodeBuilder.BuildSchemas
import AgentEcosystem.Semantics.Raising
import Mathlib.Logic.Function.Basic

/-!
The registry of tools, keyed by digest. `register` looks at the request it is
given, not at the one that was signed.
-/
namespace ToolRegistry
open AgentSchemas CodeBuilder Raising

inductive RegistryError where
  | toolPolicyError (msg : String)
  deriving DecidableEq, Repr

inductive ToolStatus where
  | registered | retired
  deriving DecidableEq, Repr

theorem ToolStatus.registered_of_ne {status : ToolStatus} (current : status ≠ .retired) :
    status = .registered := by
  cases status with
  | registered => rfl
  | retired => exact absurd rfl current

structure RegisteredTool where
  sha256 : String
  name : String
  riskTier : RiskTier
  codePath : String
  testPath : String
  buildRequestId : String
  ethicsVerdictId : Option String
  allowedDomains : List String
  registeredAt : Timestamp
  status : ToolStatus := .registered
  retiredAt : Option Timestamp := none
  deriving DecidableEq, Repr

abbrev Registry := String → Option RegisteredTool

def register (artifact : ToolArtifact) (buildRequest : BuildRequest) (now : Timestamp) :
    Raising RegistryError Registry RegisteredTool := do
  if artifact.buildRequestId ≠ buildRequest.id then
    throw (.toolPolicyError "artifact/build_request id mismatch")
  if buildRequest.riskTier = .high ∧ artifact.ethicsVerdictId = none then
    throw (.toolPolicyError "high-risk tool requires ethics_verdict_id")
  let rt : RegisteredTool :=
    { sha256 := artifact.sha256
      name := buildRequest.toolName
      riskTier := buildRequest.riskTier
      codePath := artifact.codePath
      testPath := artifact.testPath
      buildRequestId := buildRequest.id.str
      ethicsVerdictId := artifact.ethicsVerdictId.map Uuid.str
      allowedDomains := buildRequest.allowedDomains
      registeredAt := now }
  modify fun bySha => Function.update bySha artifact.sha256 (some rt)
  return rt

/-- `get` -/
def findTool (bySha : Registry) (sha : String) : Except RegistryError RegisteredTool :=
  match bySha sha with
  | some rt => .ok rt
  | none => .error (.toolPolicyError s!"unknown tool sha {sha}")

def retire (sha : String) (now : Timestamp) : Raising RegistryError Registry RegisteredTool := do
  let rt ← attempt id (findTool (← get) sha)
  let retired := { rt with status := .retired, retiredAt := some now }
  modify fun bySha => Function.update bySha sha (some retired)
  return retired

structure Admitted (artifact : ToolArtifact) (buildRequest : BuildRequest) : Prop where
  sameRequest : artifact.buildRequestId = buildRequest.id
  reviewed : buildRequest.riskTier = .high → artifact.ethicsVerdictId ≠ none

def entryOf (artifact : ToolArtifact) (buildRequest : BuildRequest) (now : Timestamp) :
    RegisteredTool where
  sha256 := artifact.sha256
  name := buildRequest.toolName
  riskTier := buildRequest.riskTier
  codePath := artifact.codePath
  testPath := artifact.testPath
  buildRequestId := buildRequest.id.str
  ethicsVerdictId := artifact.ethicsVerdictId.map Uuid.str
  allowedDomains := buildRequest.allowedDomains
  registeredAt := now

section Calls
variable {artifact : ToolArtifact} {buildRequest : BuildRequest} {bySha : Registry}

theorem outcome_register (admitted : Admitted artifact buildRequest) (now : Timestamp) :
    outcome (register artifact buildRequest now) bySha =
      (.ok (entryOf artifact buildRequest now),
        Function.update bySha artifact.sha256 (some (entryOf artifact buildRequest now))) := by
  have reviewed : ¬ (buildRequest.riskTier = .high ∧ artifact.ethicsVerdictId = none) :=
    fun both => admitted.reviewed both.1 both.2
  rw [register, if_neg (not_not.mpr admitted.sameRequest), if_neg reviewed]
  rfl

theorem outcome_register_refused (refused : ¬ Admitted artifact buildRequest) (now : Timestamp) :
    ∃ msg, outcome (register artifact buildRequest now) bySha =
      (.error (.toolPolicyError msg), bySha) := by
  unfold register
  by_cases mismatch : artifact.buildRequestId ≠ buildRequest.id
  · rw [if_pos mismatch]
    exact ⟨_, rfl⟩
  · rw [if_neg mismatch, if_pos]
    · exact ⟨_, rfl⟩
    · by_contra reviewed
      exact refused ⟨not_not.mp mismatch, fun high none => reviewed ⟨high, none⟩⟩

theorem outcome_retire {sha : String} {rt : RegisteredTool} (found : bySha sha = some rt)
    (now : Timestamp) : outcome (retire sha now) bySha =
      (.ok { rt with status := .retired, retiredAt := some now },
        Function.update bySha sha (some { rt with status := .retired, retiredAt := some now })) := by
  rw [retire, outcome_bind, outcome_get]
  simp only [findTool, found]
  rfl

theorem outcome_retire_unknown {sha : String} (absent : bySha sha = none) (now : Timestamp) :
    ∃ e, outcome (retire sha now) bySha = (.error e, bySha) := by
  rw [retire, outcome_bind, outcome_get]
  simp only [findTool, absent]
  exact ⟨_, rfl⟩

def Refused (artifact : ToolArtifact) (buildRequest : BuildRequest) (now : Timestamp)
    (registry : Registry) : Prop :=
  ∃ msg, (outcome (register artifact buildRequest now) registry).1 = .error (.toolPolicyError msg)

theorem refused_iff_not_admitted (now : Timestamp) :
    Refused artifact buildRequest now bySha ↔ ¬ Admitted artifact buildRequest := by
  constructor
  · rintro ⟨msg, raised⟩ admitted
    rw [outcome_register admitted] at raised
    cases raised
  · intro refused
    obtain ⟨msg, raised⟩ := outcome_register_refused refused now
    exact ⟨msg, by rw [raised]⟩

theorem refused_iff (artifact : ToolArtifact) (buildRequest : BuildRequest) (now : Timestamp)
    (registry : Registry) : Refused artifact buildRequest now registry ↔
      artifact.buildRequestId ≠ buildRequest.id ∨
        (buildRequest.riskTier = .high ∧ artifact.ethicsVerdictId = none) := by
  rw [refused_iff_not_admitted]
  constructor
  · intro refused
    by_contra neither
    rw [not_or, not_not, not_and] at neither
    exact refused ⟨neither.1, neither.2⟩
  · rintro (mismatch | ⟨high, none⟩) admitted
    · exact mismatch admitted.sameRequest
    · exact admitted.reviewed high none

end Calls

end ToolRegistry
