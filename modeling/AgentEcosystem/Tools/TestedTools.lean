import AgentEcosystem.CodeBuilder.Sandbox
import AgentEcosystem.Tools.ShadowSwap

/-!
From the sandbox to the execution. A build that returns an artifact has seen its tests
pass on the very bytes it signs, so where what runs is what was signed, it was tested.
-/
namespace CodeBuilder
open AgentSchemas CanonicalJson Raising UnicodeText

structure AllPassed (data : CharacterData) (r : SandboxResult) : Prop where
  judged : JudgedByCoverage data r
  noneFailed : reportedFailures data (text r.stdout) = 0
  somePassed : 0 < reportedPasses data (text r.stdout)

theorem allPassed_of_ok {data : CharacterData} {r : SandboxResult}
    (notTimeout : r.reason ≠ "timeout") (zero : r.exitCode = 0) {v : ValidationResult}
    (validated : validate data (text r.stdout) (.finite 0) = .ok v) (ok : v.ok = true) :
    AllPassed data r := by
  by_cases readable : ReadableCounts data (text r.stdout)
  · rw [validate_reads readable] at validated
    cases validated
    rw [Bool.and_eq_true, Bool.and_eq_true, beq_iff_eq, decide_eq_true_eq] at ok
    exact ⟨⟨notTimeout, zero, readable⟩, ok.1.1, ok.1.2⟩
  · rw [validate_raises readable] at validated
    cases validated

/-- An artifact is returned only for tests that passed. -/
theorem build_tested (host : Host) (fresh : Fresh) (req : BuildRequest) (runner : SandboxRunner)
    (targetRoot : String) (files : Files) : Ensures (build host fresh req runner targetRoot) files
      (fun out _ => out.artifact ≠ none →
        AllPassed host.characters (sandboxResult req runner))
      (fun _ _ => True) := by
  have stopped : ∀ req' reason detail, Ensures (failed fresh req' reason detail) files
      (fun out _ => out.artifact ≠ none → AllPassed host.characters (sandboxResult req runner))
      (fun _ _ => True) := by
    intro req' reason detail
    apply ensures_mono (failed_files fresh req' files reason detail)
    · exact fun out _ none some => absurd none.1 some
    · exact fun _ _ _ => trivial
  apply ensures_build_parts
  unfold settle
  split
  · exact stopped _ _ _
  · next notTimeout =>
    split
    · apply ensures_bind
      exact ensures_attempt (fun _ _ => stopped _ _ _) fun _ _ => trivial
    · next zero =>
      apply ensures_bind
      apply ensures_attempt _ fun _ _ => trivial
      intro v validated
      split
      · exact stopped _ _ _
      · next ok =>
        have passed := allPassed_of_ok notTimeout (not_not.mp zero) validated
          (Bool.not_eq_false _ ▸ ok)
        apply ensures_bind
        apply ensures_writeArtifactFiles
        apply ensures_bind
        exact ensures_attempt (fun _ _ => ensures_pure fun _ => passed) fun _ _ => trivial

end CodeBuilder

namespace ToolRegistry
open AgentSchemas CanonicalJson CodeBuilder PythonImport Raising Runs ToolRuntime UnicodeText

variable {Code Payload Output Exception : Type}

def DockerBuilt (as : List (WorkshopAction Payload)) : Prop :=
  ∀ fresh req runner targetRoot, .build fresh req runner targetRoot ∈ as →
    ∃ docker job, runner = dockerSandboxRun docker job

/-- A build of the run signed the tool under this digest, after its container had ended
    with code zero on these bytes, within both limits, with a summary in which at least
    one test passed and none failed. -/
def Tested (host : Host) (as : List (WorkshopAction Payload)) (sha : String) (bytes : Bytes) : Prop :=
  ∃ fresh req docker job targetRoot stdout stderr,
    .build fresh req (dockerSandboxRun docker job) targetRoot ∈ as ∧
    bytes = (buildParts host.jsonDepth req).toolPy ∧
    sha = host.sha256.hexdigest (buildParts host.jsonDepth req).message ∧
    docker.subprocessRun (dockerArgv docker job req.maxWallSeconds) bytes
      (buildParts host.jsonDepth req).testPy (req.maxWallSeconds + 30) = .exited 0 stdout stderr ∧
    reportedFailures host.characters (text stdout) = 0 ∧
    0 < reportedPasses host.characters (text stdout)

section Runs
variable {host : Host} {py : Interpreter Code Payload Output Exception} {files : Files}

theorem Tested.mono {as : List (WorkshopAction Payload)} {sha : String} {bytes : Bytes}
    (tested : Tested host as sha bytes) (a : WorkshopAction Payload) :
    Tested host (as ++ [a]) sha bytes := by
  obtain ⟨fresh, req, docker, job, targetRoot, stdout, stderr, mem, rest⟩ := tested
  exact ⟨fresh, req, docker, job, targetRoot, stdout, stderr, List.mem_append_left _ mem, rest⟩

/- A build adds to what is signed only what it has tested. -/
theorem signatures_tested {fresh : Fresh} {req : BuildRequest} {docker : DockerHost} {job : Job}
    {targetRoot : String} {as : List (WorkshopAction Payload)}
    (mem : .build fresh req (dockerSandboxRun docker job) targetRoot ∈ as)
    {artifact : ToolArtifact} {bytes : Bytes}
    (signed : (artifact, bytes) ∈ signatures host.jsonDepth req
      (outcome (build host fresh req (dockerSandboxRun docker job) targetRoot) files).1) :
    Tested host as artifact.sha256 bytes := by
  obtain ⟨filedUnder, rfl⟩ := mem_signatures signed
  rcases result : (outcome (build host fresh req (dockerSandboxRun docker job) targetRoot) files).1
    with e | out
  · rw [result] at signed
    cases signed
  · rw [result, signatures, Option.mem_toList, Option.map_eq_some_iff] at signed
    obtain ⟨a', returned, same⟩ := signed
    have passed := ensures_of_ok (build_tested host fresh req (dockerSandboxRun docker job)
      targetRoot files) result (by rw [returned]; exact Option.some_ne_none a')
    obtain ⟨stdout, stderr, exited, printed⟩ :=
      sandboxResultOf_success passed.judged.notTimeout passed.judged.zero
    have output : (sandboxResult req (dockerSandboxRun docker job)).stdout = stdout := printed
    have failures := passed.noneFailed
    have passes := passed.somePassed
    rw [output] at failures passes
    exact ⟨fresh, req, docker, job, targetRoot, stdout, stderr, mem, rfl, filedUnder.digest,
      exited, failures, passes⟩

theorem signed_tested {as : List (WorkshopAction Payload)} (built : DockerBuilt as) :
    ∀ artifact bytes, (artifact, bytes) ∈ (run (workshopStep host py) (newWorkshop files) as).signed →
      Tested host as artifact.sha256 bytes := by
  induction as using List.reverseRecOn with
  | nil =>
    intro artifact bytes signed
    cases signed
  | append_singleton as a ih =>
    have earlier := ih fun fresh req runner targetRoot mem =>
      built fresh req runner targetRoot (List.mem_append_left _ mem)
    intro artifact bytes signed
    rw [run_append] at signed
    cases a with
    | build fresh req runner targetRoot =>
      have last : .build fresh req runner targetRoot ∈ as ++ [.build fresh req runner targetRoot] :=
        List.mem_append_right _ (List.mem_singleton.mpr rfl)
      obtain ⟨docker, job, rfl⟩ := built fresh req runner targetRoot last
      rcases List.mem_append.mp signed with old | new
      · exact (earlier artifact bytes old).mono _
      · exact signatures_tested last new
    | register artifact' buildRequest now => exact (earlier artifact bytes signed).mono _
    | invoke sha mtime payload wallSeconds => exact (earlier artifact bytes signed).mono _
    | write path content => exact (earlier artifact bytes signed).mono _

end Runs

/-- In every run of builds, registrations, invocations and writes that registers what its
    builds returned and leaves the files and the byte-code of registered tools as they
    were signed, the code that an invocation executes is that of a source which passed
    its tests in a container of this run. -/
theorem executed_tested (host : Host) (py : Interpreter Code Payload Output Exception)
    (files : Files) {as : List (WorkshopAction Payload)} (injective : TellsApart host (Builds as))
    (honours : Meets (workshopStep host py) (Honours py) (newWorkshop files) as)
    (built : DockerBuilt as) (mtime : ℤ) (payload : Payload) (wallSeconds : PyFloat)
    {sha : String} {code : Code} :
    let w := run (workshopStep host py) (newWorkshop files) as
    executed py w.files mtime payload wallSeconds w.registry sha = some code →
      ∃ bytes, Tested host as sha bytes ∧ py.compile bytes = .ok code := by
  intro w ran
  have bound : Bound host py (Builds as) w := meets_invariant (workshopStep host py)
    (Bound host py (Builds as)) (fun w a fine bound => bound_step injective a fine bound)
    (bound_new host py _ files) (meets_and (workshopStep host py) honours (only_builds as))
  obtain ⟨bytes, ⟨a, mem, rfl⟩, compiled⟩ :=
    bound.noShadowSwap.executes mtime payload wallSeconds sha code ran
  exact ⟨bytes, signed_tested built a bytes mem, compiled⟩

def passingDocker : DockerHost where
  binary := "docker"
  subprocessRun _ _ _ _ := .exited 0 passingResult.stdout ""
  elapsed := .finite (1 / 10) (text "0.1")

def sorterJob : Job := ⟨text "/tmp/cb-8f1d", ⟨0x2c⟩⟩

theorem sorter_docker : passingRunner = dockerSandboxRun passingDocker sorterJob := rfl

theorem executed_tested_sorter : ∃ a : ToolArtifact,
    let as := [buildSorter, registerSorter a]
    let w := run (workshopStep runnableHost echoing) (newWorkshop noFiles) as
    executed echoing w.files 0 () .nan w.registry a.sha256 = some sorterTool ∧
      ∃ bytes, Tested runnableHost as a.sha256 bytes ∧ echoing.compile bytes = .ok sorterTool := by
  obtain ⟨a, sorter⟩ := sorter_built
  refine ⟨a, ?_⟩
  intro as w
  have one : ∀ fresh req runner targetRoot, .build fresh req runner targetRoot ∈ as →
      req = sorterRequest ∧ runner = passingRunner := by
    intro fresh req runner targetRoot mem
    simp only [as, buildSorter, registerSorter, List.mem_cons, reduceCtorEq, List.not_mem_nil,
      or_false, WorkshopAction.build.injEq] at mem
    exact ⟨mem.2.1, mem.2.2.1⟩
  have apart : TellsApart runnableHost (Builds as) := by
    rintro req req' ⟨fresh, runner, targetRoot, mem⟩ ⟨fresh', runner', targetRoot', mem'⟩
    rw [(one _ _ _ _ mem).1, (one _ _ _ _ mem').1]
    exact fun _ => rfl
  have honours : Meets (workshopStep runnableHost echoing) (Honours echoing)
      (newWorkshop noFiles) as := by
    refine ⟨trivial, fun _ => ⟨⟨a, sorterTool, sorter.signed ▸ List.mem_singleton.mpr rfl, rfl, rfl,
      .inr sorter.stored⟩, ?_⟩, trivial⟩
    intro data cached
    cases sorter.uncached.symm.trans cached
  have docker : DockerBuilt as := fun fresh req runner targetRoot mem =>
    ⟨passingDocker, sorterJob, (one _ _ _ _ mem).2.trans sorter_docker⟩
  have loads := echoing_loads sorter.stored (validByteCode_uncached sorter.uncached sorterTool 0)
  have ran : executed echoing w.files 0 () .nan w.registry a.sha256 = some sorterTool := by
    simp only [w, as, run_cons, run_nil, registered_files]
    exact registered_executes sorter.admitted loads
  exact ⟨ran, executed_tested runnableHost echoing noFiles apart honours docker 0 () .nan ran⟩

end ToolRegistry
