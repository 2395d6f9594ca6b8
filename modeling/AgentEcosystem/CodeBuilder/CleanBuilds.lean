import AgentEcosystem.CodeBuilder.SignedBuilds
import AgentEcosystem.Tools.RiskEscalation

/-!
How a build ends for what the sandbox may return. The validator reads numbers from
the output, and of these only the artifact checks the coverage, after the files are
written.
-/
namespace CodeBuilder
open AgentSchemas CanonicalJson JsonText NearestRounding Raising UnicodeText

/-- A finite number of the floating-point type is below this bound. -/
def InRange : PyFloat → Prop
  | .finite value _ => |value| < 2 ^ 1024
  | _ => True

def OneSet (out : BuildOutcome) : Prop := out.artifact.isSome = !out.failure.isSome

/-- The build returns one of the two, and touches the files for an artifact only. -/
def EndsCleanly (host : Host) (fresh : Fresh) (req : BuildRequest) (runner : SandboxRunner)
    (targetRoot : String) (files : Files) : Prop :=
  ∃ out, (outcome (build host fresh req runner targetRoot) files).1 = .ok out ∧
    OneSet out ∧
    (out.artifact = none → after (build host fresh req runner targetRoot) files = files)

def reported (found : Option (List (Fin 10))) (otherwise : ℕ) : ℕ :=
  (found.map ofDigits).getD otherwise

/-- What was found is short enough to be converted. -/
def Short (found : Option (List (Fin 10))) : Prop :=
  ∀ ds, found = some ds → ds.length ≤ maxStrDigits

section Reports
variable (data : CharacterData) (stdout : Text)

def summaryOk : Option (List (Fin 10)) := searchLines (digitsBefore data " passed") true stdout

def summaryFail : Option (List (Fin 10)) := searchFrom (digitsBefore data " failed") stdout

def reportedPasses : ℕ :=
  reported (summaryOk data stdout) (findPassed data (stdout.length + 1) true stdout).length

def reportedFailures : ℕ := reported (summaryFail data stdout) 0

def reportedCoverage : Float64 := (searchFrom (matchCoverage data) stdout).getD (.finite 0)

def testIds (passedCt : ℕ) : List Text :=
  let passedIds := findPassed data (stdout.length + 1) true stdout
  if passedIds = [] ∧ passedCt ≠ 0 then (List.range passedCt).map fun i => text s!"test_{i + 1}"
  else passedIds

structure ReadableCounts : Prop where
  passed : Short (summaryOk data stdout)
  failed : Short (summaryFail data stdout)

end Reports

def quotedOutput (r : SandboxResult) : String :=
  excerpt (if r.stderr = "" then r.stdout else r.stderr)

/-- The result is a timeout; or its exit code fits into a failure's detail, between
    `exit=` and a blank; or its counts can be read, and where all tests pass, the
    coverage is at most 100 percent. -/
def WithinLimits (data : CharacterData) (r : SandboxResult) : Prop :=
  if r.reason = "timeout" then True
  else if r.exitCode ≠ 0 then
    6 + (toString r.exitCode).length + (quotedOutput r).length ≤ detailMaxLength
  else
    ReadableCounts data (text r.stdout) ∧
      (reportedFailures data (text r.stdout) = 0 → 0 < reportedPasses data (text r.stdout) →
        (reportedCoverage data (text r.stdout)).le (.finite 100) = true)

theorem withinLimits_zero (data : CharacterData) {r : SandboxResult}
    (notTimeout : r.reason ≠ "timeout") (zero : r.exitCode = 0) : WithinLimits data r ↔
      ReadableCounts data (text r.stdout) ∧
        (reportedFailures data (text r.stdout) = 0 → 0 < reportedPasses data (text r.stdout) →
          (reportedCoverage data (text r.stdout)).le (.finite 100) = true) := by
  rw [WithinLimits, if_neg notTimeout, if_neg (not_not_intro zero)]

structure JudgedByCoverage (data : CharacterData) (r : SandboxResult) : Prop where
  notTimeout : r.reason ≠ "timeout"
  zero : r.exitCode = 0
  readable : ReadableCounts data (text r.stdout)

theorem length_excerpt (s : String) : (excerpt s).length ≤ 500 := by
  rw [excerpt, String.length_ofList]
  exact List.length_take_le _ _

theorem length_toString_nat {n k : ℕ} (pos : 0 < k) (below : n < 10 ^ k) :
    (toString n).length ≤ k := by
  rw [Nat.toString_eq_repr]
  exact (Nat.length_repr_le_iff pos).mpr below

theorem toDigits_le_toString (n : ℤ) :
    (Nat.toDigits 10 n.natAbs).length ≤ (toString n).length := by
  have digits : (Nat.toDigits 10 n.natAbs).length = n.natAbs.repr.length := by
    rw [← Nat.toList_repr, String.length_toList]
  rw [digits, Int.toString_eq_repr, Int.repr_eq_if]
  split
  · have same : n.toNat = n.natAbs := by omega
    rw [same]
  · have same : (-n).toNat = n.natAbs := by omega
    rw [same, String.length_append]
    omega

theorem natAbs_roundEven {value bound : ℚ} (below : |value| < bound) :
    ((roundEven (10 * value)).natAbs : ℚ) < 10 * bound + 1 / 2 := by
  have error := roundEven_error (10 * value)
  have near := abs_sub_abs_le_abs_sub (roundEven (10 * value) : ℚ) (10 * value)
  rw [abs_sub_comm, abs_mul, abs_of_pos (by norm_num : (0 : ℚ) < 10)] at near
  rw [Nat.cast_natAbs, Int.cast_abs]
  linarith

theorem length_oneDecimal {x : PyFloat} (range : InRange x) : (oneDecimal x).length ≤ 400 := by
  cases x with
  | finite value repr =>
    have large : (10 : ℚ) * 2 ^ 1024 + 1 / 2 < (10 ^ 310 : ℕ) := by
      have wide : 10 * 2 ^ 1024 + 1 < 10 ^ 310 := by decide +kernel
      have cast : (10 : ℚ) * 2 ^ 1024 + 1 < (10 ^ 310 : ℕ) := by exact_mod_cast wide
      exact lt_of_le_of_lt (by gcongr; norm_num) cast
    have bound : (roundEven (10 * value)).natAbs < 10 ^ 310 :=
      Nat.cast_lt.mp ((natAbs_roundEven range).trans large)
    have whole : (toString ((roundEven (10 * value)).natAbs / 10)).length ≤ 310 := by
      apply length_toString_nat (by decide)
      exact lt_of_le_of_lt (Nat.div_le_self _ _) bound
    have tenth : (toString ((roundEven (10 * value)).natAbs % 10)).length ≤ 1 := by
      apply length_toString_nat (by decide)
      exact Nat.mod_lt _ (by decide)
    have sign : (if repr.head? = some (ofChar '-') then "-" else "").length ≤ 1 := by
      split <;> decide
    have point : (toString ".").length = 1 := rfl
    simp only [oneDecimal, String.length_append, point]
    omega
  | infinite negative => cases negative <;> decide
  | nan => decide

def readCount (found : Option (List (Fin 10))) (otherwise : ℕ) : Except BuildError ℕ :=
  match found with
  | some ds => readInt ds
  | none => pure otherwise

theorem readCount_short {found : Option (List (Fin 10))} (short : Short found) (otherwise : ℕ) :
    readCount found otherwise = .ok (reported found otherwise) := by
  cases found with
  | some ds => exact if_pos (short ds rfl)
  | none => rfl

theorem readCount_long {found : Option (List (Fin 10))} (long : ¬ Short found) (otherwise : ℕ) :
    readCount found otherwise = .error .valueError := by
  cases found with
  | some ds =>
    apply if_neg
    intro fits
    apply long
    intro ds' same
    cases same
    exact fits
  | none => exact absurd nofun long

section Validator
variable {data : CharacterData} {stdout : Text} {minCoverage : Float64}

theorem validate_steps : validate data stdout minCoverage = do
    let passedCt ← readCount (summaryOk data stdout)
      (findPassed data (stdout.length + 1) true stdout).length
    let failCt ← readCount (summaryFail data stdout) 0
    return ⟨failCt == 0 && decide (0 < passedCt) && minCoverage.le (reportedCoverage data stdout),
      testIds data stdout passedCt, failCt, reportedCoverage data stdout, stdout⟩ := by
  rcases passed : searchLines (digitsBefore data " passed") true stdout <;>
    rcases failed : searchFrom (digitsBefore data " failed") stdout <;>
    simp only [validate, readCount, summaryOk, summaryFail, passed, failed] <;> rfl

theorem validate_reads (readable : ReadableCounts data stdout) :
    validate data stdout minCoverage = .ok ⟨reportedFailures data stdout == 0 &&
      decide (0 < reportedPasses data stdout) && minCoverage.le (reportedCoverage data stdout),
      testIds data stdout (reportedPasses data stdout), reportedFailures data stdout,
      reportedCoverage data stdout, stdout⟩ := by
  rw [validate_steps, readCount_short readable.passed, readCount_short readable.failed]
  rfl

theorem validate_raises (unreadable : ¬ ReadableCounts data stdout) :
    validate data stdout minCoverage = .error .valueError := by
  rw [validate_steps]
  by_cases passed : Short (summaryOk data stdout)
  · have failed : ¬ Short (summaryFail data stdout) := fun short => unreadable ⟨passed, short⟩
    rw [readCount_short passed, readCount_long failed]
    rfl
  · rw [readCount_long passed]
    rfl

end Validator

theorem le_hundred_of_negative {coverage : Float64}
    (negative : (Float64.finite 0).le coverage = false) : coverage.le (.finite 100) = true := by
  cases coverage with
  | finite q =>
    simp only [Float64.le, decide_eq_false_iff_not, decide_eq_true_eq, not_le] at negative ⊢
    linarith
  | infinity => cases negative

theorem coverage_of_artifact {id buildRequestId : Uuid} {sha256 codePath testPath : String}
    {passedTests : List Text} {coverage : Float64} {signedAt : Timestamp} {a : ToolArtifact}
    (validated : ToolArtifact.validate id buildRequestId sha256 codePath testPath passedTests
      (if coverage.le (.finite 0) then .finite 0 else coverage) .codeBuilderV3 signedAt = .ok a) :
    coverage.le (.finite 100) = true := by
  cases coverage with
  | finite q =>
    simp only [Float64.le, decide_eq_true_eq] at validated ⊢
    split at validated
    · linarith
    · unfold ToolArtifact.validate at validated
      dsimp only at validated
      split at validated
      · next range => exact range.2
      · cases validated
  | infinity => cases validated

section Builds
variable {host : Host} {fresh : Fresh} {parts : ArtifactParts} {r : SandboxResult}
  {targetRoot : String} {files : Files}

/-- The result leads to a return within the limits and to an exception outside; if that is
    for the coverage, the files are written all the same. -/
def Ends (host : Host) (fresh : Fresh) (parts : ArtifactParts) (targetRoot : String)
    (files : Files) (r : SandboxResult) : Prop :=
  Ensures (settle host fresh parts.buildRequest parts.toolPy parts.testPy r targetRoot) files
    (fun out _ => WithinLimits host.characters r ∧ OneSet out)
    fun _ t => ¬ WithinLimits host.characters r ∧
      (JudgedByCoverage host.characters r → t = writtenFiles host.sha256 targetRoot parts files)

theorem timeout_ends (timedOut : r.reason = "timeout") (range : InRange r.wallSeconds) :
    Ends host fresh parts targetRoot files r := by
  have within : WithinLimits host.characters r := by
    rw [WithinLimits, if_pos timedOut]
    trivial
  unfold Ends settle
  rw [if_pos timedOut]
  apply ensures_failed
  · intro _ _
    exact ⟨within, rfl⟩
  · intro long
    have wall := length_oneDecimal range
    have stderr := length_excerpt r.stderr
    have length : s!"wall={oneDecimal r.wallSeconds}s stderr={excerpt r.stderr}".length =
        5 + (oneDecimal r.wallSeconds).length + 9 + (excerpt r.stderr).length := by
      simp only [String.length_append]
      rfl
    rw [length, detailMaxLength] at long
    omega

theorem nonzero_ends (notTimeout : r.reason ≠ "timeout") (nonzero : r.exitCode ≠ 0) :
    Ends host fresh parts targetRoot files r := by
  have within : WithinLimits host.characters r ↔
      6 + (toString r.exitCode).length + (quotedOutput r).length ≤ detailMaxLength := by
    rw [WithinLimits, if_neg notTimeout, if_pos nonzero]
  unfold Ends settle
  rw [if_neg notTimeout, if_pos nonzero]
  apply ensures_bind
  unfold pythonInt
  split
  · apply ensures_attempt_ok
    have length : s!"exit={toString r.exitCode} {quotedOutput r}".length =
        5 + (toString r.exitCode).length + 1 + (quotedOutput r).length := by
      simp only [String.length_append]
      rfl
    have same : 5 + (toString r.exitCode).length + 1 + (quotedOutput r).length =
        6 + (toString r.exitCode).length + (quotedOutput r).length := by omega
    rw [same] at length
    apply ensures_failed
    · intro short _
      exact ⟨within.mpr (length ▸ short), rfl⟩
    · intro long _
      refine ⟨fun fits => ?_, fun judged => absurd judged.zero nonzero⟩
      exact absurd (length ▸ long) (not_lt.mpr (within.mp fits))
  · next long =>
    apply ensures_attempt
    · rintro _ nothing
      cases nothing
    · intro _ _
      refine ⟨fun fits => ?_, fun judged => absurd judged.zero nonzero⟩
      have digits := toDigits_le_toString r.exitCode
      have room := within.mp fits
      simp only [detailMaxLength] at room
      simp only [maxStrDigits] at long
      omega

theorem zero_ends (notTimeout : r.reason ≠ "timeout") (zero : r.exitCode = 0) :
    Ends host fresh parts targetRoot files r := by
  have within := withinLimits_zero host.characters notTimeout zero
  unfold Ends settle
  rw [if_neg notTimeout, if_neg (not_not_intro zero)]
  apply ensures_bind
  by_cases readable : ReadableCounts host.characters (text r.stdout)
  · rw [validate_reads readable]
    apply ensures_attempt_ok
    split
    · next notOk =>
      apply ensures_failed
      · intro _ _
        refine ⟨within.mpr ⟨readable, ?_⟩, rfl⟩
        intro none some
        apply le_hundred_of_negative
        rw [none] at notOk
        simpa [some] using notOk
      · intro long
        have short := length_excerpt r.stdout
        rw [detailMaxLength] at long
        omega
    · next ok =>
      apply ensures_bind
      apply ensures_writeArtifactFiles
      apply ensures_bind
      apply ensures_attempt
      · intro a validated
        apply ensures_pure
        exact ⟨within.mpr ⟨readable, fun _ _ => coverage_of_artifact validated⟩, rfl⟩
      · intro e invalid
        refine ⟨fun fits => ?_, fun _ => rfl⟩
        rw [Bool.not_eq_false, Bool.and_eq_true, Bool.and_eq_true, beq_iff_eq,
          decide_eq_true_eq] at ok
        have bounded := (within.mp fits).2 ok.1.1 ok.1.2
        obtain ⟨a, valid⟩ := validate_artifact_ok fresh.artifactId parts.buildRequest.id
          (hexdigest_fits host.sha256 parts.message)
          (toolPath targetRoot (host.sha256.hexdigest parts.message))
          (testPath targetRoot (host.sha256.hexdigest parts.message))
          (testIds host.characters (text r.stdout) (reportedPasses host.characters (text r.stdout)))
          bounded fresh.now
        cases invalid.symm.trans valid
  · rw [validate_raises readable]
    apply ensures_attempt
    · rintro _ nothing
      cases nothing
    · intro _ _
      constructor
      · exact fun fits => readable (within.mp fits).1
      · exact fun judged => absurd judged.readable readable

variable {req : BuildRequest} {runner : SandboxRunner}

theorem build_ends (range : InRange (sandboxResult req runner).wallSeconds) :
    Ensures (build host fresh req runner targetRoot) files
      (fun out _ => WithinLimits host.characters (sandboxResult req runner) ∧ OneSet out)
      fun _ t => ¬ WithinLimits host.characters (sandboxResult req runner) ∧
        (JudgedByCoverage host.characters (sandboxResult req runner) →
          t = writtenFiles host.sha256 targetRoot (buildParts host.jsonDepth req) files) := by
  apply ensures_build_parts
  by_cases timedOut : (sandboxResult req runner).reason = "timeout"
  · exact timeout_ends timedOut range
  · by_cases zero : (sandboxResult req runner).exitCode = 0
    · exact zero_ends timedOut zero
    · exact nonzero_ends timedOut zero

theorem not_endsCleanly (range : InRange (sandboxResult req runner).wallSeconds)
    (outside : ¬ WithinLimits host.characters (sandboxResult req runner)) :
    ¬ EndsCleanly host fresh req runner targetRoot files := by
  rintro ⟨out, returned, _⟩
  exact outside (ensures_of_ok (build_ends range) returned).1

theorem overcovered_files (range : InRange (sandboxResult req runner).wallSeconds)
    (judged : JudgedByCoverage host.characters (sandboxResult req runner))
    (outside : ¬ WithinLimits host.characters (sandboxResult req runner)) :
    after (build host fresh req runner targetRoot) files =
      writtenFiles host.sha256 targetRoot (buildParts host.jsonDepth req) files := by
  rcases run : outcome (build host fresh req runner targetRoot) files with ⟨e | out, t⟩
  · rw [after, run]
    exact (ensures_of_raises (build_ends range) run).2 judged
  · exact absurd (ensures_of_returns (build_ends range) run).1 outside

end Builds

/-- A build ends cleanly exactly if what the sandbox returns is within the limits. -/
theorem endsCleanly_iff (host : Host) (fresh : Fresh) (req : BuildRequest) (runner : SandboxRunner)
    (targetRoot : String) (files : Files)
    (range : InRange (sandboxResult req runner).wallSeconds) :
    EndsCleanly host fresh req runner targetRoot files ↔
      WithinLimits host.characters (sandboxResult req runner) := by
  constructor
  · intro clean
    by_contra outside
    exact not_endsCleanly range outside clean
  · intro within
    rcases run : outcome (build host fresh req runner targetRoot) files with ⟨e | out, t⟩
    · exact absurd within (ensures_of_raises (build_ends range) run).1
    · refine ⟨out, by rw [run], (ensures_of_returns (build_ends range) run).2, ?_⟩
      intro none
      rw [after, run]
      rcases ensures_of_returns (build_files host fresh req runner targetRoot files) run with
        ⟨_, same⟩ | ⟨a, some, _⟩
      · exact same
      · rw [none] at some
        cases some

def coveredRunner (percent : String) : SandboxRunner := fun _ _ _ =>
  ⟨0, "2 passed in 0.01s\nTOTAL  " ++ percent ++ "%\n", "", .finite (1 / 10) (text "0.1"), "ok"⟩

theorem covered_range (req : BuildRequest) (percent : String) :
    InRange (sandboxResult req (coveredRunner percent)).wallSeconds := by
  have small : |(1 / 10 : ℚ)| ≤ 1 := by norm_num
  exact small.trans_lt (one_lt_pow₀ (by norm_num) (by norm_num))

theorem covered_judged (req : BuildRequest) (percent : String)
    (passed : summaryOk asciiData
      (text (sandboxResult req (coveredRunner percent)).stdout) = some [2])
    (failed : summaryFail asciiData
      (text (sandboxResult req (coveredRunner percent)).stdout) = none) :
    JudgedByCoverage asciiData (sandboxResult req (coveredRunner percent)) := by
  have ok : "ok" ≠ "timeout" := by decide
  refine ⟨ok, rfl, ?_, ?_⟩
  · rw [passed]
    rintro _ ⟨⟩
    decide
  · rw [failed]
    exact nofun

open ToolRegistry (runnableHost runnableFresh runnableSha256 piiRequest noFiles)

theorem full_coverage_ends_cleanly :
    EndsCleanly runnableHost runnableFresh piiRequest (coveredRunner "100") "generated"
      noFiles := by
  apply (endsCleanly_iff _ _ _ _ _ _ (covered_range _ _)).mpr
  have judged := covered_judged piiRequest "100" (by decide +kernel) (by decide +kernel)
  rw [runnableHost, withinLimits_zero asciiData judged.notTimeout judged.zero]
  refine ⟨judged.readable, fun _ _ => ?_⟩
  decide +kernel

/-- Tests that report a coverage of 150 percent: the build raises, and the two files of
    the tool are there. -/
theorem overcovered_tool_orphaned :
    ¬ EndsCleanly runnableHost runnableFresh piiRequest (coveredRunner "150") "generated" noFiles ∧
    after (build runnableHost runnableFresh piiRequest (coveredRunner "150") "generated") noFiles =
      writtenFiles runnableSha256 "generated" (buildParts 1000 piiRequest) noFiles := by
  have judged := covered_judged piiRequest "150" (by decide +kernel) (by decide +kernel)
  have outside : ¬ WithinLimits asciiData (sandboxResult piiRequest (coveredRunner "150")) := by
    rw [withinLimits_zero asciiData judged.notTimeout judged.zero]
    rintro ⟨_, bounded⟩
    exact absurd (bounded (by decide +kernel) (by decide +kernel)) (by decide +kernel)
  have range := covered_range piiRequest "150"
  exact ⟨not_endsCleanly range outside, overcovered_files range judged outside⟩

end CodeBuilder
