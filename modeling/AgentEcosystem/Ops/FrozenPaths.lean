import AgentEcosystem.Ops.FreezeExperiment
import AgentEcosystem.Semantics.Runs

/-!
What the check says after a freeze and any edits behind it: whether every frozen
file still has the bytes that were frozen.
-/
namespace FreezeExperiment
open AgentSchemas JsonText Raising Runs UnicodeText

structure Edit where
  path : String
  node : Option Node
  deriving DecidableEq, Repr

def edit (tree : Tree) (e : Edit) : Tree := Function.update tree e.path e.node

theorem edit_other {tree : Tree} {e : Edit} {path : String} (other : e.path ≠ path) :
    edit tree e path = tree path := by
  simp [edit, Function.update, other.symm]

theorem run_other {path : String} (tree : Tree) (edits : List Edit)
    (others : ∀ e ∈ edits, e.path ≠ path) : run edit tree edits path = tree path := by
  induction edits generalizing tree with
  | nil => rfl
  | cons e edits ih =>
    simp only [List.forall_mem_cons] at others
    rw [run_cons, ih (edit tree e) others.2, edit_other others.1]

section Lock
variable (host : Host)

theorem lookup_strMember (entries : List (Text × Text)) (key : Text) :
    (entries.map strMember).lookup key = (entries.lookup key).map .str := by
  induction entries with
  | nil => rfl
  | cons entry entries ih =>
    obtain ⟨k, t⟩ := entry
    by_cases same : key = k
    · simp [strMember, same]
    · have differs : (key == k) = false := by simpa using same
      simp only [List.map_cons, strMember, List.lookup_cons, differs]
      exact ih

theorem lookup_of_mem {entries : List (Text × Text)} (distinct : (entries.map Prod.fst).Nodup)
    {key t : Text} (mem : (key, t) ∈ entries) : entries.lookup key = some t := by
  induction entries with
  | nil => cases mem
  | cons entry entries ih =>
    simp only [List.map_cons, List.nodup_cons] at distinct
    rcases List.mem_cons.mp mem with rfl | later
    · simp
    · have differs : (key == entry.1) = false := by
        rw [beq_eq_false_iff_ne]
        intro same
        exact distinct.1 (same ▸ List.mem_map_of_mem later)
      obtain ⟨k, u⟩ := entry
      simp only [List.lookup_cons, differs]
      exact ih distinct.2 later

theorem lookup_sorted {entries : List (Text × Text)} (distinct : (entries.map Prod.fst).Nodup)
    {key t : Text} (mem : (key, t) ∈ entries) : (sortedMembers entries).lookup key = some t := by
  have perm := perm_sortedMembers entries
  exact lookup_of_mem ((perm.map Prod.fst).nodup_iff.mpr distinct) (perm.mem_iff.mpr mem)

theorem printable_hexdigest (sha256 : Sha256) (bytes : Bytes) :
    Printable (text (sha256.hexdigest bytes)) := by
  have digits : ("0123456789abcdef".toList.all fun c => 0x20 ≤ c.toNat && c.toNat < 0x7F) = true := by
    decide
  intro c mem
  obtain ⟨ch, inside, rfl⟩ := List.mem_map.mp mem
  rw [ofChar_val]
  simpa using List.all_eq_true.mp digits ch ((sha256.hex bytes).2 ch inside)

def entriesOf (tree : Tree) : List (Text × Text) := (hashesOf host tree).map textEntry

theorem entriesOf_keys (tree : Tree) : (entriesOf host tree).map Prod.fst = frozenPaths.map text := by
  simp [entriesOf, hashesOf, textEntry, Function.comp_def]

theorem entriesOf_distinct (tree : Tree) : ((entriesOf host tree).map Prod.fst).Nodup := by
  have paths : frozenPaths.Nodup := by decide
  rw [entriesOf_keys]
  exact paths.map text_injective

theorem entriesOf_mem (tree : Tree) {path : String} (mem : path ∈ frozenPaths) :
    (text path, text (hashAt host tree path)) ∈ entriesOf host tree := by
  simp only [entriesOf, hashesOf, List.map_map]
  exact List.mem_map_of_mem mem

theorem entriesOf_printable {tree : Tree} (contains : Contains tree) :
    PrintableMembers (entriesOf host tree) := by
  have paths : ∀ path ∈ frozenPaths, Printable (text path) := by
    have all : (frozenPaths.all fun path =>
        (text path).all fun c => 0x20 ≤ c.val && c.val < 0x7F) = true := by decide
    exact fun path mem => printable_of_all (List.all_eq_true.mp all path mem)
  intro entry mem
  simp only [entriesOf, hashesOf, List.map_map, List.mem_map, Function.comp_apply] at mem
  obtain ⟨path, frozen, rfl⟩ := mem
  obtain ⟨bytes, file⟩ := contains path frozen
  refine ⟨paths path frozen, ?_⟩
  rw [textEntry, hashAt_file host file]
  exact printable_hexdigest host.sha256 bytes

theorem readLock_of_written {tree : Tree} {entries : List (Text × Text)} {bytes : Bytes}
    (distinct : (entries.map Prod.fst).Nodup) (printable : PrintableMembers entries)
    (encoded : encode (dumpsIndented entries ++ text "\n") = some bytes)
    (there : tree hashesLockFile = some (.file bytes)) :
    readLock host tree = .ok (.obj ((sortedMembers entries).map strMember)) := by
  obtain ⟨written, read⟩ := read_of_written (printableLines_document printable)
  rw [written] at encoded
  cases encoded
  simp only [readLock, there, read, loads_dumpsIndented distinct printable host.deep]
  rfl

variable {host}

theorem freeze_done {tree frozen : Tree}
    (done : freeze host tree = .ok frozen ∨ update host tree = .ok frozen) :
    Contains tree ∧ writeLock (hashesOf host tree) tree = .ok frozen := by
  have after : ∀ {x : Except FreezeError (List (String × String))}, x = computeHashes host tree →
      (x >>= fun hashes => writeLock hashes tree) = .ok frozen →
      Contains tree ∧ writeLock (hashesOf host tree) tree = .ok frozen := by
    rintro x rfl h
    obtain ⟨hashes, computed, written⟩ := ok_of_bind h
    have contains := contains_of_hashes host computed
    rw [computeHashes_ok host contains] at computed
    cases computed
    exact ⟨contains, written⟩
  rcases done with frozen | updated
  · exact after rfl frozen
  · unfold update at updated
    split at updated
    · cases updated
    · exact after rfl updated

theorem writeLock_done {hashes : List (String × String)} {tree frozen : Tree}
    (written : writeLock hashes tree = .ok frozen) :
    ∃ bytes, encode (lockText hashes) = some bytes ∧
      frozen hashesLockFile = some (.file bytes) := by
  obtain ⟨tree', _, h⟩ := ok_of_bind written
  dsimp only at h
  split at h
  · cases h
  · split at h
    · cases h
    · next bytes encoded =>
      cases h
      exact ⟨bytes, encoded, by simp⟩

/- Directories are made where nothing is, and nothing else changes. -/
theorem makeDirectories_returns {paths : List String} {tree : Tree}
    (free : ∀ path ∈ paths, ∀ bytes, tree path ≠ some (.file bytes)) :
    ∃ made, paths.foldlM makeDirectory tree = .ok made ∧
      ∀ path ∉ paths, made path = tree path := by
  induction paths generalizing tree with
  | nil => exact ⟨tree, rfl, by simp⟩
  | cons first paths ih =>
    have step : ∃ next, makeDirectory tree first = .ok next ∧
        (∀ path ≠ first, next path = tree path) ∧ next first = some .dir := by
      cases there : tree first with
      | none =>
        refine ⟨Function.update tree first (some .dir), by simp [makeDirectory, there], ?_, by simp⟩
        intro path other
        simp [other]
      | some node =>
        cases node with
        | dir => exact ⟨tree, by simp [makeDirectory, there], by simp, there⟩
        | file bytes => exact absurd there (free first List.mem_cons_self bytes)
    obtain ⟨next, stepped, others, dir⟩ := step
    have free' : ∀ path ∈ paths, ∀ bytes, next path ≠ some (.file bytes) := by
      intro path mem bytes
      by_cases same : path = first
      · simp [same, dir]
      · rw [others path same]
        exact free path (List.mem_cons_of_mem first mem) bytes
    obtain ⟨made, later, kept⟩ := ih free'
    refine ⟨made, ?_, ?_⟩
    · rw [List.foldlM_cons, stepped]
      exact later
    · intro path notMem
      simp only [List.mem_cons, not_or] at notMem
      rw [kept path notMem.2, others path notMem.1]

variable (host)

structure Writable (tree : Tree) : Prop where
  parents : ∀ path ∈ lockParents, ∀ bytes, tree path ≠ some (.file bytes)
  lock : tree hashesLockFile ≠ some .dir

theorem freeze_returns {tree : Tree} (contains : Contains tree) (writable : Writable tree) :
    ∃ frozen, freeze host tree = .ok frozen ∧ ∀ path ∈ frozenPaths, frozen path = tree path := by
  obtain ⟨made, directories, kept⟩ := makeDirectories_returns writable.parents
  have apart : hashesLockFile ∉ lockParents ∧
      ∀ path ∈ frozenPaths, path ∉ lockParents ∧ path ≠ hashesLockFile := by decide
  have noDir : made hashesLockFile ≠ some .dir := by
    rw [kept hashesLockFile apart.1]
    exact writable.lock
  obtain ⟨bytes, encoded⟩ : ∃ bytes, encode (lockText (hashesOf host tree)) = some bytes :=
    ⟨_, (read_of_written (printableLines_document (entriesOf_printable host contains))).1⟩
  have written : writeLock (hashesOf host tree) tree =
      .ok (Function.update made hashesLockFile (some (.file bytes))) := by
    simp only [writeLock, directories, bind, Except.bind, noDir, if_false, encoded]
    rfl
  refine ⟨Function.update made hashesLockFile (some (.file bytes)), ?_, ?_⟩
  · simp only [freeze, computeHashes_ok host contains, bind, Except.bind]
    exact written
  · intro path mem
    obtain ⟨notParent, notLock⟩ := apart.2 path mem
    rw [Function.update_of_ne notLock, kept path notParent]

end Lock

def Intact (tree now : Tree) : Prop :=
  ∀ path ∈ frozenPaths, ∃ bytes, tree path = some (.file bytes) ∧ now path = some (.file bytes)

def NoCollision (host : Host) (tree now : Tree) : Prop :=
  ∀ path ∈ frozenPaths, ∀ bytes bytes', tree path = some (.file bytes) →
    now path = some (.file bytes') →
    host.sha256.hexdigest bytes = host.sha256.hexdigest bytes' → bytes = bytes'

theorem isHash_text (t h : String) : isHash (some (.str (text t))) h = true ↔ t = h := by
  simp only [isHash, beq_iff_eq]
  exact ⟨fun same => text_injective same, fun same => same ▸ rfl⟩

theorem clean_iff_intact {host : Host} {tree now : Tree} (contains : Contains tree)
    (noCollision : NoCollision host tree now) :
    Clean host now ((sortedMembers (entriesOf host tree)).map strMember) ↔ Intact tree now := by
  have entry : ∀ path ∈ frozenPaths,
      (isHash (((sortedMembers (entriesOf host tree)).map strMember).lookup (text path))
        (hashAt host now path) = true ↔ hashAt host tree path = hashAt host now path) := by
    intro path mem
    rw [lookup_strMember, lookup_sorted (entriesOf_distinct host tree) (entriesOf_mem host tree mem),
      Option.map_some, isHash_text]
  constructor
  · intro clean path mem
    obtain ⟨bytes, file⟩ := contains path mem
    obtain ⟨bytes', file'⟩ := clean.1 path mem
    have same := (entry path mem).mp (clean.2 path mem)
    rw [hashAt_file host file, hashAt_file host file'] at same
    obtain rfl := noCollision path mem bytes bytes' file file' same
    exact ⟨bytes, file, file'⟩
  · intro intact
    constructor
    · intro path mem
      obtain ⟨bytes, _, file'⟩ := intact path mem
      exact ⟨bytes, file'⟩
    · intro path mem
      obtain ⟨bytes, file, file'⟩ := intact path mem
      rw [entry path mem, hashAt_file host file, hashAt_file host file']

/-- After a freeze and any edits that leave the lock alone, the check passes exactly
    when every frozen file has the bytes that were frozen. -/
theorem frozen_intact_iff (host : Host) {tree frozen : Tree}
    (done : freeze host tree = .ok frozen ∨ update host tree = .ok frozen) (edits : List Edit)
    (others : ∀ e ∈ edits, e.path ≠ hashesLockFile)
    (noCollision : NoCollision host tree (run edit frozen edits)) :
    verifyExitCode host (run edit frozen edits) = .ok 0 ↔
      Intact tree (run edit frozen edits) := by
  obtain ⟨contains, written⟩ := freeze_done done
  obtain ⟨bytes, encoded, there⟩ := writeLock_done written
  rw [← run_other frozen edits others] at there
  have lock := readLock_of_written host (entriesOf_distinct host tree)
    (entriesOf_printable host contains) encoded there
  have keys : ∀ member ∈ (sortedMembers (entriesOf host tree)).map strMember,
      member.1 ∈ frozenPaths.map text := by
    intro member mem
    obtain ⟨entry, inside, rfl⟩ := List.mem_map.mp mem
    rw [← entriesOf_keys host tree]
    exact List.mem_map_of_mem ((perm_sortedMembers _).mem_iff.mp inside)
  rw [verifyExitCode_zero_iff lock, clean_iff_intact contains noCollision]
  exact and_iff_left keys

def emptyDigest : String := "e3b0c44298fc1c149afbf4c8996fb92427ae41e4649b934ca495991b7852b855"

def commentDigest : String := "334359b90efed75da5f0ada1d5e6b256f4a6bd0aee7eb39c0f90182a021ffc8b"

def freezeHost : Host where
  sha256 :=
    { hexdigest := fun bytes => if bytes = [] then emptyDigest else commentDigest
      hex := by
        intro bytes
        apply hex_of_all
        split <;> decide +kernel }
  maxDepth := 100
  deep := by decide

def emptyTree : Tree := fun path =>
  if path ∈ frozenPaths then some (.file [])
  else if path ∈ lockParents then some .dir
  else none

def tampered : Edit := ⟨"aae/ethics/prompt.md", some (.file [0x23])⟩

def restored : Edit := ⟨"aae/ethics/prompt.md", some (.file [])⟩

theorem emptyTree_file {path : String} (mem : path ∈ frozenPaths) :
    emptyTree path = some (.file []) := by
  simp [emptyTree, mem]

theorem emptyTree_writable : Writable emptyTree := by
  constructor
  · intro path mem bytes
    have apart : ∀ path ∈ lockParents, path ∉ frozenPaths := by decide
    simp [emptyTree, apart path mem, mem]
  · decide

theorem emptyTree_noCollision (now : Tree) : NoCollision freezeHost emptyTree now := by
  intro path mem bytes bytes' file _ same
  rw [emptyTree_file mem] at file
  cases file
  by_contra other
  have differs : emptyDigest ≠ commentDigest := by decide
  simp only [freezeHost, if_true, Ne.symm other, if_false] at same
  exact differs same

theorem tampered_prompt_detected :
    ∃ frozen, freeze freezeHost emptyTree = .ok frozen ∧
      verifyExitCode freezeHost (run edit frozen [tampered]) ≠ .ok 0 ∧
      verifyExitCode freezeHost (run edit frozen [tampered, restored]) = .ok 0 := by
  have contains : Contains emptyTree := fun path mem => ⟨[], emptyTree_file mem⟩
  obtain ⟨frozen, done, kept⟩ := freeze_returns freezeHost contains emptyTree_writable
  have check := fun edits others => frozen_intact_iff freezeHost (.inl done) edits others
    (emptyTree_noCollision (run edit frozen edits))
  refine ⟨frozen, done, ?_, ?_⟩
  · rw [Ne, check [tampered] (by decide)]
    intro intact
    obtain ⟨bytes, file, file'⟩ := intact "aae/ethics/prompt.md" (by decide)
    rw [emptyTree_file (by decide)] at file
    cases file
    simp [run, edit, tampered] at file'
  · rw [check [tampered, restored] (by decide)]
    intro path mem
    refine ⟨[], emptyTree_file mem, ?_⟩
    by_cases prompt : path = "aae/ethics/prompt.md"
    · simp [run, edit, restored, prompt]
    · simp [run, edit, tampered, restored, prompt, kept path mem, emptyTree_file mem]

end FreezeExperiment
