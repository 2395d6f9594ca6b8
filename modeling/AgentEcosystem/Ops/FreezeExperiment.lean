import AgentEcosystem.Json.IndentedJson
import AgentEcosystem.Schemas
import AgentEcosystem.Semantics.Raising

/-!
Integrity of the frozen files. Their hashes are written to a lock file; two checks
compare it with what the files hash to: a command, and a call that the digest makes.
-/
namespace FreezeExperiment
open AgentSchemas JsonText Raising UnicodeText

inductive Node where
  | file (bytes : Bytes)
  | dir
  deriving DecidableEq, Repr

abbrev Tree := String → Option Node

def frozenPaths : List String :=
  ["aae/ethics/prompt.md", "aae/ethics/auditor.py", "aae/cashflow/hard_floors.py",
    "aae/config/frozen/expansion_rungs.py", "aae/config/frozen/model_routing.py",
    "aae/preregistration/schema.py", "aae/preregistration/canonical.py",
    "aae/core/trust_boundary.py"]

def hashesLockFile : String := "aae/config/frozen/hashes.lock"

def changelogFile : String := "CHANGELOG.frozen.md"

inductive FreezeError where
  | fileNotFoundError (msg : String)
  | isADirectoryError (path : String)
  /-- A file stands where a directory is needed. -/
  | notADirectoryError (path : String)
  | unicodeEncodeError
  | unicodeDecodeError
  | jsonError (e : JsonError)
  | attributeError
  | badParameter (msg : String)
  deriving DecidableEq, Repr

/-- What the checks use of the host. -/
structure Host where
  sha256 : Sha256
  /-- How deep a document the JSON reader follows. -/
  maxDepth : ℕ
  deep : 0 < maxDepth

section Commands
variable (host : Host)

def sha256File (path : String) : Option Node → Except FreezeError String
  | none => .error (.fileNotFoundError path)
  | some .dir => .error (.isADirectoryError path)
  | some (.file bytes) => .ok (host.sha256.hexdigest bytes)

def computeHashes (tree : Tree) : Except FreezeError (List (String × String)) :=
  frozenPaths.mapM fun rel => do
    if tree rel = none then throw (.fileNotFoundError ("Frozen path missing: " ++ rel))
    return (rel, ← sha256File host rel (tree rel))

def readLock (tree : Tree) : Except FreezeError Json :=
  match tree hashesLockFile with
  | none => .ok (.obj [])
  | some .dir => .error (.isADirectoryError hashesLockFile)
  | some (.file bytes) =>
    match (decodeStrict bytes).map universalNewlines with
    | none => .error .unicodeDecodeError
    | some document => (loads host.maxDepth document).mapError .jsonError

def lockParents : List String := ["aae", "aae/config", "aae/config/frozen"]

/-- One directory of `mkdir(parents=True, exist_ok=True)`. -/
def makeDirectory (tree : Tree) (path : String) : Except FreezeError Tree :=
  match tree path with
  | none => .ok (Function.update tree path (some .dir))
  | some .dir => .ok tree
  | some (.file _) => .error (.notADirectoryError path)

def textEntry (entry : String × String) : Text × Text := (text entry.1, text entry.2)

def lockText (hashes : List (String × String)) : Text :=
  dumpsIndented (hashes.map textEntry) ++ text "\n"

def writeLock (hashes : List (String × String)) (tree : Tree) : Except FreezeError Tree := do
  let tree ← lockParents.foldlM makeDirectory tree
  if tree hashesLockFile = some .dir then throw (.isADirectoryError hashesLockFile)
  match encode (lockText hashes) with
  | none => throw .unicodeEncodeError
  | some bytes => return Function.update tree hashesLockFile (some (.file bytes))

def freeze (tree : Tree) : Except FreezeError Tree := do
  let hashes ← computeHashes host tree
  writeLock hashes tree

/- The entry in the changelog is asked for, not looked at. -/
def update (tree : Tree) : Except FreezeError Tree := do
  if tree changelogFile = none then throw (.badParameter "CHANGELOG.frozen.md missing")
  let hashes ← computeHashes host tree
  writeLock hashes tree

def isHash : Option Json → String → Bool
  | some (.str t), h => t == text h
  | _, _ => false

def drift (expected : List (Text × Json)) (current : List (String × String)) : List String :=
  (current.filter fun entry => !isHash (expected.lookup (text entry.1)) entry.2).map Prod.fst

def verify (tree : Tree) : Except FreezeError ℕ := do
  let current ← computeHashes host tree
  match ← readLock host tree with
  | .obj expected => return if drift expected current = [] then 0 else 1
  | _ => throw .attributeError

/-- The exit code of the process. An exception ends it with 1. -/
def verifyCommand (tree : Tree) : ℕ :=
  match verify host tree with
  | .ok code => code
  | .error _ => 1

/-- `expected == current`: the same keys, and the same value for each. -/
def sameHashes (expected : Json) (current : List (String × String)) : Bool :=
  match expected with
  | .obj expected =>
    (expected.all fun member => current.any fun entry => member.1 == text entry.1) &&
      current.all fun entry => isHash (expected.lookup (text entry.1)) entry.2
  | _ => false

def verifyExitCode (tree : Tree) : Except FreezeError ℕ :=
  match computeHashes host tree with
  | .error (.fileNotFoundError _) => .ok 1
  | .error e => .error e
  | .ok current => do
    let expected ← readLock host tree
    return if sameHashes expected current then 0 else 1

def Contains (tree : Tree) : Prop := ∀ path ∈ frozenPaths, ∃ bytes, tree path = some (.file bytes)

def hashAt (tree : Tree) (path : String) : String :=
  match tree path with
  | some (.file bytes) => host.sha256.hexdigest bytes
  | _ => ""

theorem hashAt_file {tree : Tree} {path : String} {bytes : Bytes}
    (file : tree path = some (.file bytes)) :
    hashAt host tree path = host.sha256.hexdigest bytes := by
  simp only [hashAt, file]

def hashesOf (tree : Tree) : List (String × String) :=
  frozenPaths.map fun path => (path, hashAt host tree path)

theorem computeHashes_ok {tree : Tree} (contains : Contains tree) :
    computeHashes host tree = .ok (hashesOf host tree) := by
  apply mapM_ok
  intro path mem
  obtain ⟨bytes, file⟩ := contains path mem
  simp only [file, hashAt_file host file]
  rfl

theorem contains_of_hashes {tree : Tree} {hashes : List (String × String)}
    (computed : computeHashes host tree = .ok hashes) : Contains tree := by
  intro path mem
  obtain ⟨entry, hashed⟩ := ok_of_mapM computed path mem
  cases there : tree path with
  | none =>
    rw [there] at hashed
    cases hashed
  | some node =>
    cases node with
    | dir =>
      rw [there] at hashed
      cases hashed
    | file bytes => exact ⟨bytes, rfl⟩

theorem computeHashes_error {tree : Tree} (missing : ¬ Contains tree) :
    ∃ e, computeHashes host tree = .error e := by
  cases computed : computeHashes host tree with
  | error e => exact ⟨e, rfl⟩
  | ok hashes => exact absurd (contains_of_hashes host computed) missing

def Clean (tree : Tree) (expected : List (Text × Json)) : Prop :=
  Contains tree ∧
    ∀ path ∈ frozenPaths, isHash (expected.lookup (text path)) (hashAt host tree path) = true

theorem drift_nil_iff {tree : Tree} {expected : List (Text × Json)} :
    drift expected (hashesOf host tree) = [] ↔
      ∀ path ∈ frozenPaths, isHash (expected.lookup (text path)) (hashAt host tree path) = true := by
  simp [drift, hashesOf]

theorem sameHashes_iff {tree : Tree} {expected : List (Text × Json)} :
    sameHashes (.obj expected) (hashesOf host tree) = true ↔
      (∀ member ∈ expected, member.1 ∈ frozenPaths.map text) ∧
        ∀ path ∈ frozenPaths,
          isHash (expected.lookup (text path)) (hashAt host tree path) = true := by
  have key : ∀ member : Text × Json,
      ((hashesOf host tree).any fun entry => member.1 == text entry.1) = true ↔
        member.1 ∈ frozenPaths.map text := by
    intro member
    simp only [hashesOf, List.any_map, List.any_eq_true, Function.comp_apply, beq_iff_eq,
      List.mem_map]
    simp only [eq_comm]
  simp only [sameHashes, Bool.and_eq_true, List.all_eq_true, key]
  simp [hashesOf]

section Checks
variable {host} {tree : Tree} {expected : List (Text × Json)}
  (lock : readLock host tree = .ok (.obj expected))
include lock

theorem verifyCommand_zero_iff : verifyCommand host tree = 0 ↔ Clean host tree expected := by
  by_cases contains : Contains tree
  · have run : verify host tree =
        .ok (if drift expected (hashesOf host tree) = [] then 0 else 1) := by
      simp only [verify, computeHashes_ok host contains, lock]
      rfl
    rw [verifyCommand, run, Clean, ← drift_nil_iff]
    simp [contains]
  · obtain ⟨e, failed⟩ := computeHashes_error host contains
    have run : verify host tree = .error e := by
      simp only [verify, failed]
      rfl
    simp [verifyCommand, run, Clean, contains]

theorem verifyExitCode_contains (contains : Contains tree) :
    verifyExitCode host tree =
      .ok (if sameHashes (.obj expected) (hashesOf host tree) = true then 0 else 1) := by
  simp only [verifyExitCode, computeHashes_ok host contains, lock]
  rfl

theorem verifyExitCode_zero_iff :
    verifyExitCode host tree = .ok 0 ↔
      Clean host tree expected ∧ ∀ member ∈ expected, member.1 ∈ frozenPaths.map text := by
  by_cases contains : Contains tree
  · have code : verifyExitCode host tree = .ok 0 ↔
        sameHashes (.obj expected) (hashesOf host tree) = true := by
      rw [verifyExitCode_contains lock contains]
      cases sameHashes (.obj expected) (hashesOf host tree) <;> simp
    rw [code, sameHashes_iff, Clean]
    simp [contains, and_comm]
  · obtain ⟨e, failed⟩ := computeHashes_error host contains
    have run : verifyExitCode host tree ≠ .ok 0 := by
      rw [verifyExitCode, failed]
      cases e <;> simp
    simp [run, Clean, contains]

end Checks

end Commands

end FreezeExperiment
