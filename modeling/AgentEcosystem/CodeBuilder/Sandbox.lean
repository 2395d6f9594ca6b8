import AgentEcosystem.CodeBuilder.CleanBuilds
import AgentEcosystem.Text.ShellWords

/-!
The runner that builds use in production: one `docker run` for a job, with a limit of
time in the container and another on the host. Only the exit code and the host's limit
tell how a job ended, so a job that ran out of memory is reported as any that was killed.
-/
namespace CodeBuilder
open AgentSchemas CanonicalJson ShellWords UnicodeText

def frozenDockerArgs : List String :=
  ["docker", "run", "--rm",
    "--runtime=runsc",
    "--network=none",
    "--read-only",
    "--tmpfs", "/tmp:rw,noexec,nosuid,size=64m",
    "--tmpfs", "/home/sandbox:rw,noexec,nosuid,size=16m",
    "--memory=512m", "--memory-swap=512m",
    "--cpus=1.0",
    "--pids-limit=128",
    "--ulimit", "nofile=256:256",
    "--ulimit", "nproc=64:64",
    "--security-opt=no-new-privileges:true",
    "--cap-drop=ALL",
    "--user", "1000:1000",
    "--workdir", "/home/sandbox",
    "--stop-timeout", "5"]

/-- `name or f"codebuilder-{uuid.uuid4()}"`, where `uuid` is the identifier drawn for it. -/
def containerName (name : Option Text) (uuid : Uuid) : Text :=
  match name with
  | some (c :: cs) => c :: cs
  | _ => text ("codebuilder-" ++ uuid.str)

def buildDockerCommand (jobDir : Text) (wallSeconds : ℕ) (name : Option Text) (uuid : Uuid) :
    List Text :=
  (frozenDockerArgs.take 2).map text ++ [text "--name", containerName name uuid] ++
    (frozenDockerArgs.drop 2).map text ++
    [text "-v", jobDir ++ text ":/home/sandbox:ro", text "python:3.12-slim",
      text "timeout", text "-s", text "KILL", text (toString wallSeconds),
      text "python", text "-m", text "pytest", text "-q", text "/home/sandbox/test_tool.py"]

/-- How `subprocess.run` ends, with what was captured. -/
inductive Process where
  | exited (returncode : ℤ) (stdout stderr : String)
  | timeoutExpired (stdout : Option (Bytes ⊕ String))

/-- What a runner of the class finds on its host: the name of the binary, what a command
    with these two files in its job directory leads to within a number of seconds, and
    the seconds on the clock. -/
structure DockerHost where
  binary : String
  subprocessRun : List Text → Bytes → Bytes → ℕ → Process
  elapsed : PyFloat

structure Job where
  jobDir : Text
  uuid : Uuid

/-- `bytes.decode(errors="replace")`, as a string. -/
def decoded (bytes : Bytes) : String :=
  String.ofList ((decodeReplace bytes).map fun c => Char.ofNat c.val)

def sandboxResultOf (wallSeconds : ℕ) (elapsed : PyFloat) : Process → SandboxResult
  | .exited returncode stdout stderr =>
    let reason := if returncode = 0 then "ok" else "error"
    let reason := if returncode = 124 ∨ returncode = 137 then "timeout" else reason
    ⟨returncode, stdout, stderr, elapsed, reason⟩
  | .timeoutExpired stdout =>
    let captured := match stdout with
      | some (.inl bytes) => decoded bytes
      | some (.inr s) => s
      | none => ""
    ⟨124, captured, s!"host-level timeout after {wallSeconds + 30}s", elapsed, "timeout"⟩

def dockerArgv (docker : DockerHost) (job : Job) (wallSeconds : ℕ) : List Text :=
  let argv := buildDockerCommand job.jobDir wallSeconds none job.uuid
  if docker.binary ≠ "docker" then argv.set 0 (text docker.binary) else argv

/-- `DockerSandboxRunner.run` -/
def dockerSandboxRun (docker : DockerHost) (job : Job) : SandboxRunner :=
  fun toolPy testPy wallSeconds =>
    sandboxResultOf wallSeconds docker.elapsed
      (docker.subprocessRun (dockerArgv docker job wallSeconds) toolPy testPy (wallSeconds + 30))

theorem sandboxResultOf_success {wallSeconds : ℕ} {elapsed : PyFloat} {process : Process}
    (notTimeout : (sandboxResultOf wallSeconds elapsed process).reason ≠ "timeout")
    (zero : (sandboxResultOf wallSeconds elapsed process).exitCode = 0) :
    ∃ stdout stderr, process = .exited 0 stdout stderr ∧
      (sandboxResultOf wallSeconds elapsed process).stdout = stdout := by
  cases process with
  | exited returncode stdout stderr =>
    cases (zero : returncode = 0)
    exact ⟨stdout, stderr, rfl, rfl⟩
  | timeoutExpired stdout => exact absurd rfl notTimeout

/-- `command_preview`, with the identifier that is drawn for it. -/
def commandPreview (jobDir : Text) (uuid : Uuid) (wallSeconds : ℕ) : Text :=
  quotedLine (buildDockerCommand jobDir wallSeconds none uuid)

/-- Whatever the directory is called, a shell that is given the preview calls docker
    with the arguments that a run gives it, the name of the container apart, and does
    nothing else. Each has the name that was drawn for it. -/
theorem preview_reads_as_run (jobDir : Text) (wallSeconds : ℕ) : ∃ before after : List Text,
    (∀ uuid, simpleCommand (commandPreview jobDir uuid wallSeconds) =
      some (text "docker" :: before ++ text ("codebuilder-" ++ uuid.str) :: after)) ∧
    ∀ uuid docker toolPy testPy, dockerSandboxRun docker ⟨jobDir, uuid⟩ toolPy testPy wallSeconds =
      sandboxResultOf wallSeconds docker.elapsed
        (docker.subprocessRun
          (text docker.binary :: before ++ text ("codebuilder-" ++ uuid.str) :: after) toolPy
          testPy (wallSeconds + 30)) := by
  have program : ofChar '=' ∉ text "docker" := by decide
  refine ⟨[text "run", text "--name"], (buildDockerCommand jobDir wallSeconds none ⟨0⟩).drop 4,
    ?_, ?_⟩
  · intro uuid
    exact simpleCommand_quotedLine program _
  · intro uuid docker toolPy testPy
    rw [dockerSandboxRun, dockerArgv]
    by_cases default : docker.binary = "docker"
    · rw [if_neg (not_not_intro default), default]
      rfl
    · rw [if_pos default]
      rfl

end CodeBuilder
