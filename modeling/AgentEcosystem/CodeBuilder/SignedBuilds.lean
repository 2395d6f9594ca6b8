import AgentEcosystem.CodeBuilder.ArtifactDigest

/-!
What a build signs and writes. Both files of a build come from its request, and the
tests from the tool's name alone, so here the digest does identify the tool.
-/
namespace CodeBuilder
open AgentSchemas CanonicalJson JsonText Raising UnicodeText

def buildParts (depth : ℕ) (req : BuildRequest) : ArtifactParts where
  toolPy := (toolSkeleton req).flatMap encodeChar
  testPy := (testSkeleton req).flatMap encodeChar
  buildRequest := policyEscalate depth req ((toolSkeleton req).flatMap encodeChar)

theorem policyEscalate_toolName (depth : ℕ) (req : BuildRequest) (toolSource : Bytes) :
    (policyEscalate depth req toolSource).toolName = req.toolName := by
  unfold policyEscalate
  split <;> rfl

theorem same_str {s t : Text} (same : SameUpToOrder (.str s) (.str t)) : s = t := by
  cases same
  rfl

theorem toolName_of_canonical {req req' : BuildRequest}
    (same : canonicalDumps req.modelDump = canonicalDumps req'.modelDump) :
    req.toolName = req'.toolName := by
  rw [canonicalDumps_request, canonicalDumps_request] at same
  have texts := List.append_cancel_right (Except.ok.inj same)
  have dumps := same_of_written (modelDump_plain req) (modelDump_plain req') texts
  rw [modelDump_members, modelDump_members] at dumps
  have named : ∀ req : BuildRequest, (DictKey.str (text "tool_name"), .str (text req.toolName)) ∈
      strMembers req.members := by
    intro req
    simp [BuildRequest.members, strMembers]
  cases dumps with
  | dict _ values =>
    exact text_injective (same_str (values _ _ _ (named req) (named req')))

/- The tests mention nothing of the request but the name. -/
theorem testSkeleton_toolName {req req' : BuildRequest} (same : req.toolName = req'.toolName) :
    testSkeleton req = testSkeleton req' := by
  rw [testSkeleton, testSkeleton, same]

/-- Two builds that sign one message have rendered one tool. -/
theorem tool_of_message {depth : ℕ} {req req' : BuildRequest}
    (same : (buildParts depth req).message = (buildParts depth req').message) :
    (buildParts depth req).toolPy = (buildParts depth req').toolPy := by
  obtain ⟨files, requests⟩ := message_eq_iff.mp same
  have names := toolName_of_canonical requests
  rw [buildParts, buildParts, policyEscalate_toolName, policyEscalate_toolName] at names
  have tests : (buildParts depth req).testPy = (buildParts depth req').testPy := by
    rw [buildParts, buildParts, testSkeleton_toolName names]
  rw [tests] at files
  exact List.append_cancel_right files

def writtenFiles (sha256 : Sha256) (targetRoot : String) (p : ArtifactParts) (files : Files) :
    Files :=
  let sha := sha256.hexdigest p.message
  Function.update (Function.update files (toolPath targetRoot sha) (some p.toolPy))
    (testPath targetRoot sha) (some p.testPy)

theorem writtenFiles_tool (sha256 : Sha256) (targetRoot : String) (p : ArtifactParts)
    (files : Files) : writtenFiles sha256 targetRoot p files
      (toolPath targetRoot (sha256.hexdigest p.message)) = some p.toolPy := by
  rw [writtenFiles, Function.update_of_ne toolPath_ne_testPath, Function.update_self]

theorem writtenFiles_other {sha256 : Sha256} {targetRoot : String} {p : ArtifactParts}
    {path : String} (notTool : path ≠ toolPath targetRoot (sha256.hexdigest p.message))
    (notTest : path ≠ testPath targetRoot (sha256.hexdigest p.message)) (files : Files) :
    writtenFiles sha256 targetRoot p files path = files path := by
  rw [writtenFiles, Function.update_of_ne notTest, Function.update_of_ne notTool]

theorem ensures_writeArtifactFiles {sha256 : Sha256} {targetRoot : String} {p : ArtifactParts}
    {files : Files} {returns : String × String × String → Files → Prop}
    {raises : BuildError → Files → Prop}
    (h : returns (toolPath targetRoot (sha256.hexdigest p.message),
      testPath targetRoot (sha256.hexdigest p.message), sha256.hexdigest p.message)
      (writtenFiles sha256 targetRoot p files)) :
    Ensures (writeArtifactFiles sha256 targetRoot p.toolPy p.testPy p.buildRequest) files returns
      raises := by
  have outcome := outcome_writeArtifactFiles sha256 targetRoot p files
  apply ensures_mono ensures_outcome
  · intro result t run
    cases outcome.symm.trans run
    exact h
  · intro e t run
    cases outcome.symm.trans run

def sandboxResult (req : BuildRequest) (runner : SandboxRunner) : SandboxResult :=
  runner ((toolSkeleton req).flatMap encodeChar) ((testSkeleton req).flatMap encodeChar)
    req.maxWallSeconds

theorem policyEscalate_maxWallSeconds (depth : ℕ) (req : BuildRequest) (toolSource : Bytes) :
    (policyEscalate depth req toolSource).maxWallSeconds = req.maxWallSeconds := by
  unfold policyEscalate
  split <;> rfl

theorem ensures_build_parts {host : Host} {fresh : Fresh} {req : BuildRequest}
    {runner : SandboxRunner} {targetRoot : String} {files : Files}
    {returns : BuildOutcome → Files → Prop} {raises : BuildError → Files → Prop}
    (h : let p := buildParts host.jsonDepth req
      Ensures (settle host fresh p.buildRequest p.toolPy p.testPy (sandboxResult req runner)
        targetRoot) files returns raises) :
    Ensures (build host fresh req runner targetRoot) files returns raises := by
  apply ensures_build
  simp only [buildParts, sandboxResult] at h
  dsimp only
  rw [policyEscalate_maxWallSeconds]
  exact h

/-- The artifact is filed under the digest of these parts, below the root. -/
structure FiledUnder (sha256 : Sha256) (targetRoot : String) (p : ArtifactParts)
    (a : ToolArtifact) : Prop where
  digest : a.sha256 = sha256.hexdigest p.message
  codePath : a.codePath = toolPath targetRoot (sha256.hexdigest p.message)

section Builds
variable (host : Host) (fresh : Fresh) (req : BuildRequest) (runner : SandboxRunner)
  (targetRoot : String) (files : Files)

theorem failed_files (reason : FailureReason) (detail : String) :
    Ensures (failed fresh req reason detail) files
      (fun out t => out.artifact = none ∧ t = files) (fun _ t => t = files) := by
  apply ensures_failed
  · intro _ _
    exact ⟨rfl, rfl⟩
  · intro _ _
    rfl

def Built (out : BuildOutcome) (t : Files) : Prop :=
  (out.artifact = none ∧ t = files) ∨
    ∃ a, out.artifact = some a ∧
      FiledUnder host.sha256 targetRoot (buildParts host.jsonDepth req) a ∧
      t = writtenFiles host.sha256 targetRoot (buildParts host.jsonDepth req) files

def LeftBehind (t : Files) : Prop :=
  t = files ∨ t = writtenFiles host.sha256 targetRoot (buildParts host.jsonDepth req) files

/-- A build leaves the files alone or writes its two files, and the artifact it
    returns is filed under their digest. -/
theorem build_files : Ensures (build host fresh req runner targetRoot) files
    (Built host req targetRoot files) (fun _ t => LeftBehind host req targetRoot files t) := by
  have stopped : ∀ req' reason detail, Ensures (failed fresh req' reason detail) files
      (Built host req targetRoot files) (fun _ t => LeftBehind host req targetRoot files t) := by
    intro req' reason detail
    apply ensures_mono (failed_files fresh req' files reason detail)
    · exact fun _ _ => .inl
    · exact fun _ _ => .inl
  apply ensures_build_parts
  unfold settle
  split
  · exact stopped _ _ _
  · split
    · apply ensures_bind
      exact ensures_attempt (fun _ _ => stopped _ _ _) fun _ _ => .inl rfl
    · apply ensures_bind
      apply ensures_attempt _ fun _ _ => .inl rfl
      intro v _
      split
      · exact stopped _ _ _
      · apply ensures_bind
        apply ensures_writeArtifactFiles
        apply ensures_bind
        apply ensures_attempt
        · intro a validated
          obtain ⟨_, _, digest, codePath⟩ := validate_artifact validated
          exact ensures_pure (.inr ⟨a, rfl, ⟨digest, codePath⟩, rfl⟩)
        · exact fun _ _ => .inr rfl

end Builds

end CodeBuilder
