import AgentEcosystem.Semantics.Runs
import AgentEcosystem.Tools.RiskEscalation
import AgentEcosystem.Tools.ToolRuntime

/-!
Retirement over runs of the registry. The entry of a retired tool stays where
registrations write, and a registration does not ask what it writes over.
-/
namespace ToolRegistry
open AgentSchemas CanonicalJson CodeBuilder PythonImport Raising Runs ToolRuntime UnicodeText

inductive RegistryCall where
  | register (artifact : ToolArtifact) (buildRequest : BuildRequest) (now : Timestamp)
  | retire (sha : String) (now : Timestamp)

def callStep (bySha : Registry) : RegistryCall → Registry
  | .register artifact buildRequest now => after (register artifact buildRequest now) bySha
  | .retire sha now => after (retire sha now) bySha

def newRegistry : Registry := fun _ => none

def RegisteredTool.recorded (rt : RegisteredTool) :
    String × RiskTier × Option String × List String :=
  (rt.codePath, rt.riskTier, rt.ethicsVerdictId, rt.allowedDomains)

def Rejected (sha : String) (bySha : Registry) : Prop :=
  ∀ (Code Payload Output Exception : Type) (py : Interpreter Code Payload Output Exception)
    (files : Files) (mtime : ℤ) (payload : Payload) (wallSeconds : PyFloat), ∃ msg,
    (outcome (invoke py mtime bySha sha payload wallSeconds) ⟨files, none⟩).1 =
      .error (toolPolicyError msg)

/-- Every invocation raises a policy error, and what was recorded when `rt` was
    retired is recorded still. -/
structure KeptRetired (sha : String) (rt : RegisteredTool) (bySha : Registry) : Prop where
  rejected : Rejected sha bySha
  recorded : (bySha sha).map RegisteredTool.recorded = some rt.recorded

/-- The call registers nothing under the digest: the artifact has another one, or
    belongs to another request, or is of high risk without a verdict. -/
def RegistryCall.Spares (sha : String) : RegistryCall → Prop
  | .register artifact buildRequest _ => artifact.sha256 = sha → ¬ Admitted artifact buildRequest
  | .retire _ _ => True

theorem callStep_register_other {sha : String} {artifact : ToolArtifact}
    {buildRequest : BuildRequest} {now : Timestamp}
    (spares : (RegistryCall.register artifact buildRequest now).Spares sha) (bySha : Registry) :
    callStep bySha (.register artifact buildRequest now) sha = bySha sha := by
  rw [callStep, after]
  by_cases admitted : Admitted artifact buildRequest
  · rw [outcome_register admitted]
    exact Function.update_of_ne (fun same => spares same.symm admitted) _ _
  · obtain ⟨msg, refused⟩ := outcome_register_refused admitted now
    rw [refused]

theorem callStep_other {sha : String} {call : RegistryCall} (spares : call.Spares sha)
    (bySha : Registry) : callStep bySha call sha = bySha sha ∨
      ∃ rt now, bySha sha = some rt ∧
        callStep bySha call sha = some { rt with status := .retired, retiredAt := some now } := by
  cases call with
  | register artifact buildRequest now => exact .inl (callStep_register_other spares bySha)
  | retire sha' now =>
    rw [callStep, after]
    rcases there : bySha sha' with _ | rt
    · obtain ⟨e, unknown⟩ := outcome_retire_unknown there now
      rw [unknown]
      exact .inl rfl
    · rw [outcome_retire there]
      by_cases same : sha = sha'
      · subst same
        exact .inr ⟨rt, now, there, Function.update_self ..⟩
      · exact .inl (Function.update_of_ne same _ _)

theorem callStep_registers {artifact : ToolArtifact} {buildRequest : BuildRequest}
    (admitted : Admitted artifact buildRequest) (now : Timestamp) (bySha : Registry) :
    callStep bySha (.register artifact buildRequest now) artifact.sha256 =
      some (entryOf artifact buildRequest now) := by
  rw [callStep, after, outcome_register admitted]
  exact Function.update_self ..

/-- Takes every path for a source, whose bytes are its code, and runs every module as
    one that gives its payload back. -/
def echoing : Interpreter Bytes Unit Unit Unit where
  magicNumber := [203, 13, 13, 10]
  cacheTag := some "cpython-312"
  sourceHash _ := List.replicate 8 0
  checkHashBasedPycs := .default
  dontWriteBytecode := false
  compile source := .ok source
  marshalLoads data := .ok data
  marshalDumps code := code
  refused _ := ()
  magic_length := rfl
  hash_length _ := rfl
  loads_dumps _ := rfl
  loaderOf _ := some .source
  loadExtension _ := .error ()
  exec _ _ := .loaded (some fun _ => .ok ())
  loaderOf_py _ := rfl

theorem echoing_loads {files : Files} {codePath : String} {bytes : Bytes} {mtime : ℤ}
    (file : files codePath = some bytes)
    (stale : validByteCode echoing.toImporter files codePath bytes mtime = none) :
    Loads echoing files mtime codePath bytes :=
  ⟨.source, bytes, rfl, file, getCode_compiles stale⟩

theorem rejected_iff {sha : String} {bySha : Registry} {rt : RegisteredTool}
    (found : bySha sha = some rt) : Rejected sha bySha ↔ rt.status = .retired := by
  constructor
  · intro rejected
    by_contra current
    have loads : Loads echoing (fun _ => some []) 0 rt.codePath [] := echoing_loads rfl rfl
    have runs := invoke_registered echoing (fun _ => some []) 0 () .nan found
      (ToolStatus.registered_of_ne current) loads rfl rfl
    obtain ⟨msg, raised⟩ := rejected _ _ _ _ echoing (fun _ => some []) 0 () .nan
    rw [runs] at raised
    cases raised
  · intro retired Code Payload Output Exception py files mtime payload wallSeconds
    rw [outcome_invoke_retired py files mtime payload wallSeconds found retired]
    exact ⟨_, rfl⟩

theorem keptRetired_iff {sha : String} {rt : RegisteredTool} {bySha : Registry} :
    KeptRetired sha rt bySha ↔
      ∃ e, bySha sha = some e ∧ e.status = .retired ∧ e.recorded = rt.recorded := by
  constructor
  · rintro ⟨rejected, recorded⟩
    obtain ⟨e, found, same⟩ := Option.map_eq_some_iff.mp recorded
    exact ⟨e, found, (rejected_iff found).mp rejected, same⟩
  · rintro ⟨e, found, retired, same⟩
    exact ⟨(rejected_iff found).mpr retired, by rw [found, ← same]; rfl⟩

/- A registration under the digest is all that can bring the tool back. -/
theorem keptRetired_step {sha : String} {rt : RegisteredTool} {bySha : Registry}
    (call : RegistryCall) (kept : KeptRetired sha rt bySha) :
    KeptRetired sha rt (callStep bySha call) ↔ call.Spares sha := by
  obtain ⟨e, found, retired, same⟩ := keptRetired_iff.mp kept
  constructor
  · intro keeps
    obtain ⟨e', found', retired', _⟩ := keptRetired_iff.mp keeps
    cases call with
    | register artifact buildRequest now =>
      rintro rfl admitted
      rw [callStep_registers admitted] at found'
      cases found'
      cases retired'
    | retire sha' now => trivial
  · intro spares
    apply keptRetired_iff.mpr
    rcases callStep_other spares bySha with unchanged | ⟨e', now, found', again⟩
    · exact ⟨e, unchanged.trans found, retired, same⟩
    · rw [found] at found'
      cases found'
      exact ⟨_, again, rfl, same⟩

/-- Once a tool is retired, it stays so all along a run exactly when no call of the
    run registers a tool under its digest. -/
theorem retirement_final_iff {bySha : Registry} {sha : String} {retiredAt : Timestamp}
    {rt : RegisteredTool} (retired : (outcome (retire sha retiredAt) bySha).1 = .ok rt)
    (calls : List RegistryCall) :
    Throughout callStep (KeptRetired sha rt) (after (retire sha retiredAt) bySha) calls ↔
      ∀ call ∈ calls, call.Spares sha := by
  have kept : KeptRetired sha rt (after (retire sha retiredAt) bySha) := by
    apply keptRetired_iff.mpr
    rcases there : bySha sha with _ | entry
    · obtain ⟨e, unknown⟩ := outcome_retire_unknown there retiredAt
      rw [unknown] at retired
      cases retired
    · rw [outcome_retire there] at retired
      cases retired
      rw [after, outcome_retire there]
      exact ⟨_, Function.update_self .., rfl, rfl⟩
  rw [throughout_iff_meets callStep (KeptRetired sha rt)
    (fun _ call before => keptRetired_step call before) kept, meets_iff_forall]

def badgeArtifact : ToolArtifact where
  id := ⟨0x2a⟩
  buildRequestId := piiRequest.id
  sha256 := "4ca6c6a33c77ac136c00e3d04867b8c81c2854aa0f7339104cc8c5c88d0c203e"
  codePath := "generated/4ca6c6a33c77ac136c00e3d04867b8c81c2854aa0f7339104cc8c5c88d0c203e/tool.py"
  testPath :=
    "generated/4ca6c6a33c77ac136c00e3d04867b8c81c2854aa0f7339104cc8c5c88d0c203e/test_tool.py"
  passedTests := []
  coveragePct := 100
  signedBy := .codeBuilderV3
  signedAt := ⟨"2026-04-18T00:05:00Z"⟩
  ethicsVerdictId := none
  sha256_fits := by decide +kernel
  coveragePct_fits := by norm_num

theorem badge_admitted : Admitted badgeArtifact piiRequest := ⟨rfl, nofun⟩

def badgeRegistry : Registry :=
  run callStep newRegistry [.register badgeArtifact piiRequest badgeArtifact.signedAt]

theorem retire_badge (now : Timestamp) : ∃ rt,
    (outcome (retire badgeArtifact.sha256 now) badgeRegistry).1 = .ok rt := by
  have found : badgeRegistry badgeArtifact.sha256 = _ :=
    callStep_registers badge_admitted badgeArtifact.signedAt newRegistry
  rw [outcome_retire found]
  exact ⟨_, rfl⟩

theorem retirement_final_twice : ∃ rt,
    (outcome (retire badgeArtifact.sha256 badgeArtifact.signedAt) badgeRegistry).1 = .ok rt ∧
      Throughout callStep (KeptRetired badgeArtifact.sha256 rt)
        (after (retire badgeArtifact.sha256 badgeArtifact.signedAt) badgeRegistry)
        [.retire badgeArtifact.sha256 badgeArtifact.signedAt] := by
  obtain ⟨rt, retired⟩ := retire_badge badgeArtifact.signedAt
  refine ⟨rt, retired, (retirement_final_iff retired _).mpr ?_⟩
  intro call mem
  cases List.mem_singleton.mp mem
  trivial

/-- The retired tool is registered again and can be invoked again. -/
theorem retired_tool_comes_back : ∃ rt,
    (outcome (retire badgeArtifact.sha256 badgeArtifact.signedAt) badgeRegistry).1 = .ok rt ∧
      ¬ Throughout callStep (KeptRetired badgeArtifact.sha256 rt)
        (after (retire badgeArtifact.sha256 badgeArtifact.signedAt) badgeRegistry)
        [.register badgeArtifact piiRequest badgeArtifact.signedAt] := by
  obtain ⟨rt, retired⟩ := retire_badge badgeArtifact.signedAt
  refine ⟨rt, retired, ?_⟩
  intro throughout
  have kept := throughout _ List.prefix_rfl
  rw [run_cons, run_nil, keptRetired_iff] at kept
  obtain ⟨e, found, stays, _⟩ := kept
  rw [callStep_registers badge_admitted] at found
  cases found
  cases stays

end ToolRegistry
