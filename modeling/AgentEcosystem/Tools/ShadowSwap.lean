import AgentEcosystem.CodeBuilder.SignedBuilds
import AgentEcosystem.Tools.Retirement

/-!
Builds, registrations, invocations and writes to the files, in any order. Between the
signature and the execution there is only a path: nothing reads the file's digest again,
so what runs is what the last write left there, or in the byte-code file that the import
finds beside it.
-/
namespace ToolRegistry
open AgentSchemas CanonicalJson CodeBuilder PythonImport Raising Runs ToolRuntime UnicodeText

variable {Code Payload Output Exception : Type}

/-- The registry, the files, and the artifacts that builds returned, each with the
    bytes of its tool. -/
structure Workshop where
  registry : Registry
  files : Files
  signed : List (ToolArtifact × Bytes)

/-- `write` also deletes, with no content. -/
inductive WorkshopAction (Payload : Type) where
  | build (fresh : Fresh) (req : BuildRequest) (runner : SandboxRunner) (targetRoot : String)
  | register (artifact : ToolArtifact) (buildRequest : BuildRequest) (now : Timestamp)
  | invoke (sha : String) (mtime : ℤ) (payload : Payload) (wallSeconds : PyFloat)
  | write (path : String) (content : Option Bytes)

def signatures (depth : ℕ) (req : BuildRequest) (result : Except BuildError BuildOutcome) :
    List (ToolArtifact × Bytes) :=
  match result with
  | .ok out => (out.artifact.map fun a => (a, (buildParts depth req).toolPy)).toList
  | .error _ => []

theorem signatures_ok (depth : ℕ) (req : BuildRequest) {out : BuildOutcome} {a : ToolArtifact}
    (artifact : out.artifact = some a) :
    signatures depth req (.ok out) = [(a, (buildParts depth req).toolPy)] := by
  rw [signatures, artifact]
  rfl

def newWorkshop (files : Files) : Workshop := ⟨newRegistry, files, []⟩

def SignedAs (w : Workshop) (sha : String) (bytes : Bytes) : Prop :=
  ∃ a, (a, bytes) ∈ w.signed ∧ a.sha256 = sha

section Imports
variable (py : Interpreter Code Payload Output Exception)

def SignedCode (w : Workshop) (sha : String) (code : Code) : Prop :=
  ∃ bytes, SignedAs w sha bytes ∧ py.compile bytes = .ok code

def SignedByteCode (w : Workshop) (sha : String) (data : Bytes) : Prop :=
  ∀ code, getByteCode py.toImporter data = .ok code → SignedCode py w sha code

/-- What an invocation executes was signed under the digest it was asked for, and a
    file with anything else in it makes the invocation raise. -/
structure NoShadowSwap (w : Workshop) : Prop where
  executes : ∀ (mtime : ℤ) (payload : Payload) (wallSeconds : PyFloat) (sha : String) (code : Code),
    executed py w.files mtime payload wallSeconds w.registry sha = some code →
    SignedCode py w sha code
  raises : ∀ (mtime : ℤ) (payload : Payload) (wallSeconds : PyFloat) (sha : String)
    (rt : RegisteredTool) (bytes : Bytes), w.registry sha = some rt →
    w.files rt.codePath = some bytes → ¬ SignedAs w sha bytes →
    ∃ e, (outcome (invoke py mtime w.registry sha payload wallSeconds) ⟨w.files, none⟩).1 =
      .error e

/-- A registration shows an artifact that a build returned, whose file is as the build
    left it or gone, without other byte-code beside it. A write to the file of a
    registered tool puts back what was signed, and one to its byte-code puts its code. -/
def Honours (w : Workshop) : WorkshopAction Payload → Prop
  | .build _ _ _ _ => True
  | .register artifact buildRequest _ => Admitted artifact buildRequest →
    (∃ a bytes, (a, bytes) ∈ w.signed ∧ a.sha256 = artifact.sha256 ∧
      a.codePath = artifact.codePath ∧
      (w.files artifact.codePath = none ∨ w.files artifact.codePath = some bytes)) ∧
    ∀ data, cachedPyc py.toImporter w.files artifact.codePath = some data →
      SignedByteCode py w artifact.sha256 data
  | .invoke _ _ _ _ => True
  | .write path content => ∀ sha rt bytes, w.registry sha = some rt → content = some bytes →
    (rt.codePath = path → SignedAs w sha bytes) ∧
    (byteCodePath py.toImporter rt.codePath = some path → SignedByteCode py w sha bytes)

end Imports

section Hosted
variable (host : Host) (py : Interpreter Code Payload Output Exception)

def workshopStep (w : Workshop) : WorkshopAction Payload → Workshop
  | .build fresh req runner targetRoot =>
    let built := outcome (build host fresh req runner targetRoot) w.files
    { w with files := built.2, signed := w.signed ++ signatures host.jsonDepth req built.1 }
  | .register artifact buildRequest now =>
    { w with registry := callStep w.registry (.register artifact buildRequest now) }
  | .invoke sha mtime payload wallSeconds =>
    { w with files := (afterInvoke py w.files mtime payload wallSeconds w.registry sha).files }
  | .write path content => { w with files := Function.update w.files path content }

def TellsApart (requested : BuildRequest → Prop) : Prop :=
  ∀ req req', requested req → requested req' →
    NoCollision host.sha256 (buildParts host.jsonDepth req) (buildParts host.jsonDepth req')

theorem workshopStep_build (w : Workshop) (fresh : Fresh) (req : BuildRequest)
    (runner : SandboxRunner) (targetRoot : String) :
    workshopStep host py w (.build fresh req runner targetRoot) =
      ⟨w.registry, after (build host fresh req runner targetRoot) w.files,
        w.signed ++ signatures host.jsonDepth req
          (outcome (build host fresh req runner targetRoot) w.files).1⟩ := rfl

/-- What is signed came from a build, and every entry has the path and the digest of
    something signed, with nothing else in its file or in its byte-code. -/
structure Bound (requested : BuildRequest → Prop) (w : Workshop) : Prop where
  built : ∀ a bytes, (a, bytes) ∈ w.signed → ∃ req targetRoot, requested req ∧
    FiledUnder host.sha256 targetRoot (buildParts host.jsonDepth req) a ∧
    bytes = (buildParts host.jsonDepth req).toolPy
  filed : ∀ sha rt, w.registry sha = some rt →
    ∃ a bytes, (a, bytes) ∈ w.signed ∧ a.sha256 = sha ∧ a.codePath = rt.codePath
  stored : ∀ sha rt bytes, w.registry sha = some rt → w.files rt.codePath = some bytes →
    SignedAs w sha bytes
  cached : ∀ sha rt data, w.registry sha = some rt →
    cachedPyc py.toImporter w.files rt.codePath = some data → SignedByteCode py w sha data

variable {host py} {requested : BuildRequest → Prop} {w : Workshop}

theorem Bound.path (bound : Bound host py requested w) {sha : String} {rt : RegisteredTool}
    (found : w.registry sha = some rt) :
    ∃ targetRoot bytes, rt.codePath = toolPath targetRoot sha ∧
      sha = host.sha256.hexdigest bytes := by
  obtain ⟨a, tool, mem, rfl, codePath⟩ := bound.filed sha rt found
  obtain ⟨req, targetRoot, _, filedUnder, _⟩ := bound.built a tool mem
  exact ⟨targetRoot, _, by rw [← codePath, filedUnder.codePath, filedUnder.digest],
    filedUnder.digest⟩

theorem toolPath_py (targetRoot sha : String) : ∃ stem, toolPath targetRoot sha = stem ++ ".py" :=
  have suffix : "/tool.py" = "/tool" ++ ".py" := by decide
  ⟨targetRoot ++ "/" ++ sha ++ "/tool", by rw [toolPath, suffix, ← String.append_assoc]⟩

theorem testPath_py (targetRoot sha : String) : ∃ stem, testPath targetRoot sha = stem ++ ".py" :=
  have suffix : "/test_tool.py" = "/test_tool" ++ ".py" := by decide
  ⟨targetRoot ++ "/" ++ sha ++ "/test_tool", by rw [testPath, suffix, ← String.append_assoc]⟩

theorem py_ne_pyc (stem stem' : String) : stem ++ ".py" ≠ stem' ++ ".pyc" := by
  intro same
  have last := congrArg (fun s => s.toList.getLast?) same
  simp at last

theorem byteCodePath_ne_py (imports : Importer Code Exception) {path cache : String} (stem : String)
    (isCache : byteCodePath imports path = some cache) : cache ≠ stem ++ ".py" := by
  obtain ⟨tag, _, rfl⟩ := Option.map_eq_some_iff.mp isCache
  obtain ⟨stem', ends⟩ := cacheFromSource_pyc tag path
  rw [ends]
  exact (py_ne_pyc stem stem').symm

theorem hexdigest_ends (sha256 : Sha256) (bytes : Bytes) :
    ∃ front c, (sha256.hexdigest bytes).toList = front ++ [c] ∧ c ≠ '/' := by
  obtain ⟨length, digits⟩ := sha256.hex bytes
  rcases List.eq_nil_or_concat' (sha256.hexdigest bytes).toList with empty | ⟨front, c, ends⟩
  · rw [← String.length_toList, empty] at length
    cases length
  · refine ⟨front, c, ends, ?_⟩
    rintro rfl
    exact absurd (digits '/' (by rw [ends]; simp)) (by decide)

/-- The tools of two digests share no byte-code file. -/
theorem byteCodePath_inj {root root' sha sha' cache : String} {bytes bytes' : Bytes}
    {sha256 : Sha256} (digest : sha = sha256.hexdigest bytes)
    (digest' : sha' = sha256.hexdigest bytes') {imports : Importer Code Exception}
    (isCache : byteCodePath imports (toolPath root sha) = some cache)
    (isCache' : byteCodePath imports (toolPath root' sha') = some cache) : sha = sha' := by
  have layout : ∀ root bytes tag, cacheFromSource tag (toolPath root (sha256.hexdigest bytes)) =
      root ++ "/" ++ sha256.hexdigest bytes ++ "/__pycache__/" ++ "tool" ++ "." ++ tag ++
        ".pyc" := by
    intro root bytes tag
    obtain ⟨front, c, ends, inside⟩ := hexdigest_ends sha256 bytes
    have path : toolPath root (sha256.hexdigest bytes) =
        root ++ "/" ++ sha256.hexdigest bytes ++ "/" ++ "tool" ++ ".py" := by
      have suffix : "/tool.py" = "/" ++ ("tool" ++ ".py") := by decide
      rw [toolPath, suffix, ← String.append_assoc, ← String.append_assoc]
    rw [path]
    have plain : ∀ d ∈ "tool".toList, d ≠ '/' ∧ d ≠ '.' := by simp
    apply cacheFromSource_py tag ((root ++ "/").toList ++ front) _ inside (by decide) plain
    rw [String.toList_append, ends, List.append_assoc]
  obtain ⟨tag, isTag, rfl⟩ := Option.map_eq_some_iff.mp isCache
  obtain ⟨tag', isTag', same⟩ := Option.map_eq_some_iff.mp isCache'
  cases isTag.symm.trans isTag'
  subst digest digest'
  rw [layout, layout] at same
  have chars := congrArg String.toList same
  simp only [String.toList_append] at chars
  have paths : toolPath root' (sha256.hexdigest bytes') = toolPath root (sha256.hexdigest bytes) := by
    apply String.toList_injective
    simp only [toolPath, String.toList_append]
    rw [List.append_cancel_right (List.append_cancel_right (List.append_cancel_right
      (List.append_cancel_right (List.append_cancel_right chars))))]
  have lengths : (sha256.hexdigest bytes').length = (sha256.hexdigest bytes).length := by
    rw [(sha256.hex bytes').1, (sha256.hex bytes).1]
  exact (toolPath_inj lengths paths).2.symm

theorem Bound.loader (bound : Bound host py requested w) {sha : String} {rt : RegisteredTool}
    (found : w.registry sha = some rt) : py.loaderOf rt.codePath = some .source := by
  obtain ⟨targetRoot, _, path, _⟩ := bound.path found
  obtain ⟨stem, ends⟩ := toolPath_py targetRoot sha
  rw [path, ends, py.loaderOf_py]

theorem Bound.noShadowSwap (bound : Bound host py requested w) : NoShadowSwap py w := by
  constructor
  · intro mtime payload wallSeconds sha code ran
    obtain ⟨rt, found, _, loader, bytes, isLoader, file, got⟩ :=
      (executed_iff py w.files mtime payload wallSeconds).mp ran
    cases (bound.loader found).symm.trans isLoader
    rcases getCode_from got with ⟨data, cached, loaded⟩ | compiled
    · exact bound.cached sha rt data found cached code loaded
    · exact ⟨bytes, bound.stored sha rt bytes found file, compiled⟩
  · intro mtime payload wallSeconds sha rt bytes found file unsigned
    exact absurd (bound.stored sha rt bytes found file) unsigned

theorem build_leaves (host : Host) (fresh : Fresh) (req : BuildRequest) (runner : SandboxRunner)
    (targetRoot : String) (files : Files) :
    LeftBehind host req targetRoot files (after (build host fresh req runner targetRoot) files) := by
  apply ensures_after
  apply ensures_mono (build_files host fresh req runner targetRoot files)
  · rintro out t (⟨_, same⟩ | ⟨_, _, _, wrote⟩)
    · exact .inl same
    · exact .inr wrote
  · exact fun _ _ left => left

theorem mem_signatures {host : Host} {fresh : Fresh} {req : BuildRequest} {runner : SandboxRunner}
    {targetRoot : String} {files : Files} {a : ToolArtifact} {bytes : Bytes}
    (mem : (a, bytes) ∈ signatures host.jsonDepth req
      (outcome (build host fresh req runner targetRoot) files).1) :
    FiledUnder host.sha256 targetRoot (buildParts host.jsonDepth req) a ∧
      bytes = (buildParts host.jsonDepth req).toolPy := by
  rcases result : (outcome (build host fresh req runner targetRoot) files).1 with e | out
  · rw [result] at mem
    cases mem
  · rw [result, signatures, Option.mem_toList, Option.map_eq_some_iff] at mem
    obtain ⟨a', artifact, same⟩ := mem
    cases same
    rcases ensures_of_ok (build_files host fresh req runner targetRoot files) result with
      ⟨none, _⟩ | ⟨a', artifact', filedUnder, _⟩
    · cases none.symm.trans artifact
    · cases artifact'.symm.trans artifact
      exact ⟨filedUnder, rfl⟩

theorem bound_register (bound : Bound host py requested w) {artifact : ToolArtifact}
    {buildRequest : BuildRequest} {now : Timestamp}
    (honours : Honours py w (.register artifact buildRequest now)) :
    Bound host py requested (workshopStep host py w (.register artifact buildRequest now)) := by
  have entries : ∀ sha rt,
      (workshopStep host py w (.register artifact buildRequest now)).registry sha = some rt →
      (w.registry sha = some rt) ∨ (sha = artifact.sha256 ∧ Admitted artifact buildRequest ∧
        rt.codePath = artifact.codePath) := by
    intro sha rt found
    by_cases spares : (RegistryCall.register artifact buildRequest now).Spares sha
    · exact .inl ((callStep_register_other spares w.registry).symm.trans found)
    · simp only [RegistryCall.Spares, Classical.not_imp, not_not] at spares
      obtain ⟨rfl, admitted⟩ := spares
      cases (callStep_registers admitted now w.registry).symm.trans found
      exact .inr ⟨rfl, admitted, rfl⟩
  constructor
  · exact bound.built
  · intro sha rt found
    rcases entries sha rt found with old | ⟨rfl, admitted, path⟩
    · exact bound.filed sha rt old
    · obtain ⟨⟨a, bytes, mem, digest, codePath, _⟩, _⟩ := honours admitted
      exact ⟨a, bytes, mem, digest, codePath.trans path.symm⟩
  · intro sha rt bytes found file
    rcases entries sha rt found with old | ⟨rfl, admitted, path⟩
    · exact bound.stored sha rt bytes old file
    · obtain ⟨⟨a, signed, mem, digest, _, contents⟩, _⟩ := honours admitted
      change w.files rt.codePath = some bytes at file
      rw [path] at file
      rcases contents with gone | kept
      · cases gone.symm.trans file
      · cases kept.symm.trans file
        exact ⟨a, mem, digest⟩
  · intro sha rt data found cached
    rcases entries sha rt found with old | ⟨rfl, admitted, path⟩
    · exact bound.cached sha rt data old cached
    · rw [path] at cached
      exact (honours admitted).2 data cached

theorem cachedPyc_update {imports : Importer Code Exception} {files : Files} {path cache : String}
    {content : Option Bytes} {data : Bytes}
    (cached : cachedPyc imports (Function.update files cache content) path = some data) :
    (byteCodePath imports path = some cache ∧ content = some data) ∨
      cachedPyc imports files path = some data := by
  obtain ⟨found, isCache, held⟩ := Option.bind_eq_some_iff.mp cached
  by_cases here : found = cache
  · rw [here, Function.update_self] at held
    exact .inl ⟨here ▸ isCache, held⟩
  · rw [Function.update_of_ne here] at held
    exact .inr (Option.bind_eq_some_iff.mpr ⟨found, isCache, held⟩)

theorem bound_write (bound : Bound host py requested w) {path : String} {content : Option Bytes}
    (honours : Honours py w (.write path content)) :
    Bound host py requested (workshopStep host py w (.write path content)) := by
  constructor
  · exact bound.built
  · exact bound.filed
  · intro sha rt bytes found file
    change Function.update w.files path content rt.codePath = some bytes at file
    by_cases here : rt.codePath = path
    · rw [here, Function.update_self] at file
      exact (honours sha rt bytes found file).1 here
    · rw [Function.update_of_ne here] at file
      exact bound.stored sha rt bytes found file
  · intro sha rt data found cached
    rcases cachedPyc_update cached with ⟨here, held⟩ | old
    · exact (honours sha rt data found held).2 here
    · exact bound.cached sha rt data found old

/- An invocation caches at most the code of the tool that it is about. -/
theorem invoke_files (bound : Bound host py requested w) (sha : String) (mtime : ℤ)
    (payload : Payload) (wallSeconds : PyFloat) :
    (afterInvoke py w.files mtime payload wallSeconds w.registry sha).files = w.files ∨
      ∃ rt bytes cache code flags, w.registry sha = some rt ∧ w.files rt.codePath = some bytes ∧
        byteCodePath py.toImporter rt.codePath = some cache ∧ py.compile bytes = .ok code ∧
        (afterInvoke py w.files mtime payload wallSeconds w.registry sha).files = Function.update
          w.files cache (some (codeToPyc py.toImporter bytes mtime flags code)) := by
  by_cases refused : ∀ rt, w.registry sha = some rt → rt.status = .retired
  · rw [afterInvoke_refused py w.files mtime payload wallSeconds refused]
    exact .inl rfl
  · push Not at refused
    obtain ⟨rt, found, current⟩ := refused
    rw [afterInvoke_registered py w.files mtime payload wallSeconds found
      (ToolStatus.registered_of_ne current), loading, bound.loader found]
    rcases file : w.files rt.codePath with _ | bytes
    · exact .inl rfl
    · rcases getCode_files py.toImporter w.files rt.codePath bytes mtime with
        same | ⟨cache, code, flags, isCache, compiled, wrote⟩
      · exact .inl same
      · exact .inr ⟨rt, bytes, cache, code, flags, found, file, isCache, compiled, wrote⟩

theorem bound_invoke (bound : Bound host py requested w) (sha : String) (mtime : ℤ)
    (payload : Payload) (wallSeconds : PyFloat) :
    Bound host py requested (workshopStep host py w (.invoke sha mtime payload wallSeconds)) := by
  rcases invoke_files bound sha mtime payload wallSeconds with
    same | ⟨rt, bytes, cache, code, flags, found, file, isCache, compiled, wrote⟩
  · exact ⟨bound.built, bound.filed, fun sha' rt' bytes' found' file' =>
      bound.stored sha' rt' bytes' found' (same ▸ file'), fun sha' rt' data found' cached =>
      bound.cached sha' rt' data found' (same ▸ cached)⟩
  · constructor
    · exact bound.built
    · exact bound.filed
    · intro sha' rt' bytes' found' file'
      obtain ⟨targetRoot, _, path, _⟩ := bound.path found'
      obtain ⟨stem, ends⟩ := toolPath_py targetRoot sha'
      have notCache := byteCodePath_ne_py py.toImporter stem isCache
      simp only [workshopStep, wrote] at file'
      rw [Function.update_of_ne (by rw [path, ends]; exact notCache.symm)] at file'
      exact bound.stored sha' rt' bytes' found' file'
    · intro sha' rt' data found' cached
      simp only [workshopStep, wrote] at cached
      rcases cachedPyc_update cached with ⟨here, held⟩ | old
      · obtain ⟨root, message, path, digest⟩ := bound.path found
        obtain ⟨root', message', path', digest'⟩ := bound.path found'
        have same := byteCodePath_inj digest digest' (path ▸ isCache) (path' ▸ here)
        subst same
        cases held
        intro code' loaded
        rw [getByteCode_cached loaded]
        exact ⟨bytes, bound.stored sha rt bytes found file, compiled⟩
      · exact bound.cached sha' rt' data found' old

/- Another build writes to the path of a signed tool only if it signs the same
   message, and then it writes the same tool. -/
theorem writtenFiles_signed (injective : TellsApart host requested)
    (bound : Bound host py requested w) {req : BuildRequest} (builds : requested req)
    {targetRoot : String} {sha : String} {rt : RegisteredTool} {bytes : Bytes}
    (found : w.registry sha = some rt)
    (file : writtenFiles host.sha256 targetRoot (buildParts host.jsonDepth req) w.files
      rt.codePath = some bytes) : SignedAs w sha bytes := by
  obtain ⟨a, tool, mem, digest, codePath⟩ := bound.filed sha rt found
  obtain ⟨req', root, builds', filedUnder, rfl⟩ := bound.built a tool mem
  rw [filedUnder.codePath] at codePath
  have notTest : rt.codePath ≠ testPath targetRoot
      (host.sha256.hexdigest (buildParts host.jsonDepth req).message) := by
    rw [← codePath]
    exact toolPath_ne_testPath
  by_cases here : rt.codePath = toolPath targetRoot
      (host.sha256.hexdigest (buildParts host.jsonDepth req).message)
  · rw [here, writtenFiles_tool] at file
    cases file
    have lengths : (host.sha256.hexdigest (buildParts host.jsonDepth req').message).length =
        (host.sha256.hexdigest (buildParts host.jsonDepth req).message).length := by
      rw [(host.sha256.hex _).1, (host.sha256.hex _).1]
    have digests := (toolPath_inj lengths (codePath.trans here)).2
    have same := tool_of_message (injective req' req builds' builds digests)
    exact ⟨a, same ▸ mem, digest⟩
  · rw [writtenFiles_other here notTest] at file
    exact bound.stored sha rt bytes found file

theorem cachedPyc_written {imports : Importer Code Exception} {sha256 : Sha256}
    {targetRoot path : String} {p : ArtifactParts} {files : Files} {data : Bytes}
    (cached : cachedPyc imports (writtenFiles sha256 targetRoot p files) path = some data) :
    cachedPyc imports files path = some data := by
  obtain ⟨cache, isCache, held⟩ := Option.bind_eq_some_iff.mp cached
  obtain ⟨stem, tool⟩ := toolPath_py targetRoot (sha256.hexdigest p.message)
  obtain ⟨stem', test⟩ := testPath_py targetRoot (sha256.hexdigest p.message)
  have notTool := byteCodePath_ne_py imports stem isCache
  have notTest := byteCodePath_ne_py imports stem' isCache
  rw [writtenFiles_other (tool ▸ notTool) (test ▸ notTest)] at held
  exact Option.bind_eq_some_iff.mpr ⟨cache, isCache, held⟩

theorem bound_build (injective : TellsApart host requested) (bound : Bound host py requested w)
    {req : BuildRequest} (builds : requested req) (fresh : Fresh) (runner : SandboxRunner)
    (targetRoot : String) :
    Bound host py requested (workshopStep host py w (.build fresh req runner targetRoot)) := by
  have older : ∀ {sha bytes}, SignedAs w sha bytes →
      SignedAs (workshopStep host py w (.build fresh req runner targetRoot)) sha bytes := by
    rintro sha bytes ⟨a, mem, digest⟩
    exact ⟨a, List.mem_append_left _ mem, digest⟩
  have left := build_leaves host fresh req runner targetRoot w.files
  constructor
  · intro a bytes mem
    rcases List.mem_append.mp mem with old | new
    · exact bound.built a bytes old
    · obtain ⟨filedUnder, tool⟩ := mem_signatures new
      exact ⟨req, targetRoot, builds, filedUnder, tool⟩
  · intro sha rt found
    obtain ⟨a, bytes, mem, rest⟩ := bound.filed sha rt found
    exact ⟨a, bytes, List.mem_append_left _ mem, rest⟩
  · intro sha rt bytes found file
    rw [workshopStep_build] at file
    dsimp only at file
    apply older
    rcases left with same | wrote
    · rw [same] at file
      exact bound.stored sha rt bytes found file
    · rw [wrote] at file
      exact writtenFiles_signed injective bound builds found file
  · intro sha rt data found cached
    have before : cachedPyc py.toImporter w.files rt.codePath = some data := by
      rw [workshopStep_build] at cached
      rcases left with same | wrote
      · rwa [same] at cached
      · rw [wrote] at cached
        exact cachedPyc_written cached
    intro code loaded
    obtain ⟨bytes, signed, compiled⟩ := bound.cached sha rt data found before code loaded
    exact ⟨bytes, older signed, compiled⟩

def Only (requested : BuildRequest → Prop) : WorkshopAction Payload → Prop
  | .build _ req _ _ => requested req
  | _ => True

theorem bound_step (injective : TellsApart host requested) (a : WorkshopAction Payload)
    (honours : Honours py w a ∧ Only requested a) (bound : Bound host py requested w) :
    Bound host py requested (workshopStep host py w a) := by
  cases a with
  | build fresh req runner targetRoot =>
    exact bound_build injective bound honours.2 fresh runner targetRoot
  | register artifact buildRequest now => exact bound_register bound honours.1
  | invoke sha mtime payload wallSeconds => exact bound_invoke bound sha mtime payload wallSeconds
  | write path content => exact bound_write bound honours.1

end Hosted

def Builds (as : List (WorkshopAction Payload)) (req : BuildRequest) : Prop :=
  ∃ fresh runner targetRoot, .build fresh req runner targetRoot ∈ as

theorem only_builds (as : List (WorkshopAction Payload)) : ∀ a ∈ as, Only (Builds as) a := by
  intro a mem
  cases a with
  | build fresh req runner targetRoot => exact ⟨fresh, runner, targetRoot, mem⟩
  | register artifact buildRequest now => trivial
  | invoke sha mtime payload wallSeconds => trivial
  | write path content => trivial

theorem bound_new (host : Host) (py : Interpreter Code Payload Output Exception)
    (requested : BuildRequest → Prop) (files : Files) :
    Bound host py requested (newWorkshop files) := by
  constructor
  · intro a bytes mem
    cases mem
  · intro sha rt found
    cases found
  · intro sha rt bytes found
    cases found
  · intro sha rt data found
    cases found

/-- In every run that registers what its builds returned and leaves the files and the
    byte-code of registered tools as they were signed, what runs is what was signed. -/
theorem no_shadow_swap (host : Host) (py : Interpreter Code Payload Output Exception)
    (files : Files) {as : List (WorkshopAction Payload)} (injective : TellsApart host (Builds as))
    (honours : Meets (workshopStep host py) (Honours py) (newWorkshop files) as) :
    Throughout (workshopStep host py) (NoShadowSwap py) (newWorkshop files) as := by
  have bound := throughout_of_meets (workshopStep host py) (Bound host py (Builds as))
    (fun w a fine bound => bound_step injective a fine bound) (bound_new host py _ files)
    (meets_and (workshopStep host py) honours (only_builds as))
  intro before isPrefix
  exact (bound before isPrefix).noShadowSwap

def buildSorter : WorkshopAction Unit :=
  .build runnableFresh sorterRequest passingRunner "generated"

def registerSorter (a : ToolArtifact) : WorkshopAction Unit :=
  .register a sorterRequest runnableFresh.now

def invokeSorter (a : ToolArtifact) : WorkshopAction Unit := .invoke a.sha256 0 () .nan

def sorterTool : Bytes := (buildParts runnableHost.jsonDepth sorterRequest).toolPy

/-- The tool was built: its artifact is signed, and its tool is in its file, without
    byte-code beside it. -/
structure SorterBuilt (w : Workshop) (a : ToolArtifact) : Prop where
  signed : w.signed = [(a, sorterTool)]
  admitted : Admitted a sorterRequest
  stored : w.files a.codePath = some sorterTool
  uncached : cachedPyc echoing.toImporter w.files a.codePath = none
  path : ∃ stem, a.codePath = stem ++ ".py"

theorem sorter_built :
    ∃ a, SorterBuilt (workshopStep runnableHost echoing (newWorkshop noFiles) buildSorter) a := by
  obtain ⟨out, a, built, artifact⟩ := passing_artifact sorterRequest
  have files := build_files runnableHost runnableFresh sorterRequest passingRunner "generated" noFiles
  have unreviewed := ensures_of_ok (build_unreviewed runnableHost runnableFresh sorterRequest
    passingRunner "generated" noFiles) built
  refine ⟨a, ?_⟩
  rw [buildSorter, workshopStep_build]
  rcases ensures_of_ok files built with ⟨none, _⟩ | ⟨a', artifact', filedUnder, wrote⟩
  · cases none.symm.trans artifact
  · cases artifact'.symm.trans artifact
    constructor
    · dsimp only [newWorkshop]
      rw [built, signatures_ok _ _ artifact, sorterTool, List.nil_append]
    · exact ⟨(unreviewed a artifact).1, nofun⟩
    · simp only [newWorkshop, wrote]
      rw [filedUnder.codePath, writtenFiles_tool, sorterTool]
    · simp only [newWorkshop, wrote]
      rcases cached : cachedPyc echoing.toImporter _ a.codePath with _ | data
      · rfl
      · cases cachedPyc_written cached
    · obtain ⟨stem, ends⟩ := toolPath_py "generated" (runnableHost.sha256.hexdigest
        (buildParts runnableHost.jsonDepth sorterRequest).message)
      exact ⟨stem, filedUnder.codePath.trans ends⟩

theorem registered_files (w : Workshop) (a : ToolArtifact) :
    (workshopStep runnableHost echoing w (registerSorter a)).files = w.files := rfl

theorem registered_executes {w : Workshop} {a : ToolArtifact} (admitted : Admitted a sorterRequest)
    {files : Files} {code : Bytes} (loads : Loads echoing files 0 a.codePath code) :
    executed echoing files 0 () .nan
      (workshopStep runnableHost echoing w (registerSorter a)).registry a.sha256 = some code :=
  (executed_iff echoing files 0 () .nan).mpr
    ⟨_, callStep_registers admitted runnableFresh.now w.registry, rfl, loads⟩

theorem no_shadow_swap_sorter : ∃ a, Throughout (workshopStep runnableHost echoing)
    (NoShadowSwap echoing) (newWorkshop noFiles)
    [buildSorter, registerSorter a, invokeSorter a, .write a.codePath none] := by
  obtain ⟨a, sorter⟩ := sorter_built
  refine ⟨a, no_shadow_swap runnableHost echoing noFiles ?_ ⟨trivial, ?_, trivial, ?_, trivial⟩⟩
  · have only : ∀ req, Builds [buildSorter, registerSorter a, invokeSorter a,
        .write a.codePath none] req → req = sorterRequest := by
      rintro req ⟨fresh, runner, targetRoot, mem⟩
      simp only [buildSorter, registerSorter, invokeSorter, List.mem_cons, reduceCtorEq,
        List.not_mem_nil, or_false, WorkshopAction.build.injEq] at mem
      exact mem.2.1
    intro req req' builds builds'
    rw [only req builds, only req' builds']
    exact fun _ => rfl
  · intro _
    refine ⟨⟨a, sorterTool, sorter.signed ▸ List.mem_singleton.mpr rfl, rfl, rfl,
      .inr sorter.stored⟩, ?_⟩
    intro data cached
    cases sorter.uncached.symm.trans cached
  · intro sha rt bytes _ empty
    cases empty

def otherTool : Bytes := (text "def run(payload):\n    return payload\n").flatMap encodeChar

theorem otherTool_ne : otherTool ≠ sorterTool := by
  have quoted : sorterTool.head? = some quoteByte := by
    rw [sorterTool, buildParts, toolSkeleton, List.append_assoc, List.append_assoc]
    rfl
  intro same
  rw [← same] at quoted
  exact absurd quoted (by decide)

theorem not_safe_of_loads {w : Workshop} {a : ToolArtifact} (sorter : SorterBuilt w a)
    {path : String} {content : Option Bytes}
    (loads : Loads echoing (Function.update w.files path content) 0 a.codePath otherTool) :
    ¬ NoShadowSwap echoing (workshopStep runnableHost echoing
      (workshopStep runnableHost echoing w (registerSorter a)) (.write path content)) := by
  intro safe
  obtain ⟨bytes, ⟨a', mem, _⟩, compiled⟩ := safe.executes 0 () .nan a.sha256 otherTool
    (registered_executes (w := w) sorter.admitted loads)
  change (a', bytes) ∈ w.signed at mem
  rw [sorter.signed, List.mem_singleton] at mem
  cases mem
  exact otherTool_ne (Except.ok.inj compiled).symm

def otherPyc : Bytes :=
  echoing.magicNumber ++ packUint32 1 ++ List.replicate 8 0 ++ otherTool

theorem otherPyc_loads {files : Files} {path : String} {bytes : Bytes}
    (file : files path = some bytes)
    (cached : cachedPyc echoing.toImporter files path = some otherPyc) :
    Loads echoing files 0 path otherTool := by
  have classified : classifyPyc echoing.toImporter otherPyc = some 1 := by decide
  have unchecked : validatePyc echoing.toImporter bytes 0 otherPyc 1 = true := rfl
  have body : otherPyc.drop 16 = otherTool := List.drop_left' rfl
  refine ⟨.source, bytes, rfl, file, ?_⟩
  rw [moduleCode, getCode, validByteCode, cached]
  simp only [Option.bind_eq_bind, Option.bind_some, classified, unchecked, if_true, body]
  rfl

/-- Other code in the file of the registered tool, or in the byte-code file beside it,
    runs under the digest of the tool. -/
theorem swapped_tool_runs : ∃ a cache,
    byteCodePath echoing.toImporter a.codePath = some cache ∧
    ¬ Throughout (workshopStep runnableHost echoing) (NoShadowSwap echoing) (newWorkshop noFiles)
      [buildSorter, registerSorter a, .write a.codePath (some otherTool)] ∧
    ¬ Throughout (workshopStep runnableHost echoing) (NoShadowSwap echoing) (newWorkshop noFiles)
      [buildSorter, registerSorter a, .write cache (some otherPyc)] := by
  obtain ⟨a, sorter⟩ := sorter_built
  set w := workshopStep runnableHost echoing (newWorkshop noFiles) buildSorter
  have isCache : byteCodePath echoing.toImporter a.codePath =
    some (cacheFromSource "cpython-312" a.codePath) := rfl
  obtain ⟨stem, ends⟩ := sorter.path
  have differs : cacheFromSource "cpython-312" a.codePath ≠ a.codePath := by
    rw [ends]
    exact byteCodePath_ne_py echoing.toImporter _ (ends ▸ isCache)
  refine ⟨a, _, isCache, ?_, ?_⟩
  · have loads : Loads echoing (Function.update w.files a.codePath (some otherTool)) 0 a.codePath
        otherTool := by
      have file : Function.update w.files a.codePath (some otherTool) a.codePath = some otherTool :=
        Function.update_self ..
      have uncached : cachedPyc echoing.toImporter
          (Function.update w.files a.codePath (some otherTool)) a.codePath = none := by
        have before := sorter.uncached
        rw [cachedPyc, isCache, Option.bind_some] at before
        rw [cachedPyc, isCache, Option.bind_some, Function.update_of_ne differs, before]
      exact echoing_loads file (validByteCode_uncached uncached otherTool 0)
    intro throughout
    exact not_safe_of_loads sorter loads (throughout _ List.prefix_rfl)
  · have held : cachedPyc echoing.toImporter (Function.update w.files
        (cacheFromSource "cpython-312" a.codePath) (some otherPyc)) a.codePath = some otherPyc := by
      rw [cachedPyc, isCache, Option.bind_some, Function.update_self]
    have loads := otherPyc_loads (by rw [Function.update_of_ne differs.symm, sorter.stored]) held
    intro throughout
    exact not_safe_of_loads sorter loads (throughout _ List.prefix_rfl)

end ToolRegistry
