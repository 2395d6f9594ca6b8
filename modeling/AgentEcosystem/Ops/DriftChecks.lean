import AgentEcosystem.Ops.FrozenPaths

/-!
Whether the two checks agree. The command looks up the frozen files only, the call
compares the whole lock, so an entry for any other path sets them apart.
-/
namespace FreezeExperiment
open AgentSchemas JsonText UnicodeText

section Agreement
variable {host : Host} {tree : Tree} {entries : List (Text × Text)}

theorem clean_strMember_iff : Clean host tree (entries.map strMember) ↔
    ∀ path ∈ frozenPaths, ∃ bytes, tree path = some (.file bytes) ∧
      entries.lookup (text path) = some (text (host.sha256.hexdigest bytes)) := by
  have entry : ∀ path h, isHash ((entries.map strMember).lookup (text path)) h = true ↔
      entries.lookup (text path) = some (text h) := by
    intro path h
    rw [lookup_strMember]
    cases entries.lookup (text path) <;> simp [isHash]
  constructor
  · intro clean path mem
    obtain ⟨bytes, file⟩ := clean.1 path mem
    have hash := (entry path _).mp (clean.2 path mem)
    rw [hashAt_file host file] at hash
    exact ⟨bytes, file, hash⟩
  · intro all
    constructor
    · intro path mem
      obtain ⟨bytes, file, _⟩ := all path mem
      exact ⟨bytes, file⟩
    · intro path mem
      obtain ⟨bytes, file, hash⟩ := all path mem
      rw [entry, hash, hashAt_file host file]

variable (host tree)

/-- The checks agree on a lock of strings exactly when it has entries for frozen files
    only, or one of these is missing, changed or has no entry. -/
theorem checks_agree_iff (lock : readLock host tree = .ok (.obj (entries.map strMember))) :
    (verifyCommand host tree = 0 ↔ verifyExitCode host tree = .ok 0) ↔
      (∀ entry ∈ entries, entry.1 ∈ frozenPaths.map text) ∨
        ∃ path ∈ frozenPaths, ∀ bytes, tree path = some (.file bytes) →
          entries.lookup (text path) ≠ some (text (host.sha256.hexdigest bytes)) := by
  have keys : (∀ member ∈ entries.map strMember, member.1 ∈ frozenPaths.map text) ↔
      ∀ entry ∈ entries, entry.1 ∈ frozenPaths.map text := by
    simp only [List.forall_mem_map, strMember]
  have drifted : ¬ Clean host tree (entries.map strMember) ↔
      ∃ path ∈ frozenPaths, ∀ bytes, tree path = some (.file bytes) →
        entries.lookup (text path) ≠ some (text (host.sha256.hexdigest bytes)) := by
    rw [clean_strMember_iff]
    simp only [not_forall, not_exists, not_and, exists_prop]
  rw [verifyCommand_zero_iff lock, verifyExitCode_zero_iff lock, keys, ← drifted]
  tauto

end Agreement

def emptyEntries : List (Text × Text) := entriesOf freezeHost emptyTree

def readmeEntries : List (Text × Text) := emptyEntries ++ [(text "README.md", text emptyDigest)]

def lockedTree (entries : List (Text × Text)) : Tree :=
  Function.update emptyTree hashesLockFile
    (some (.file ((dumpsIndented entries ++ text "\n").flatMap encodeChar)))

theorem lockedTree_file (entries : List (Text × Text)) {path : String} (mem : path ∈ frozenPaths) :
    lockedTree entries path = some (.file []) := by
  have notLock : ∀ path ∈ frozenPaths, path ≠ hashesLockFile := by decide
  rw [lockedTree, Function.update_of_ne (notLock path mem), emptyTree_file mem]

theorem lockedTree_contains (entries : List (Text × Text)) : Contains (lockedTree entries) :=
  fun _ mem => ⟨[], lockedTree_file entries mem⟩

theorem lockedTree_lock {entries : List (Text × Text)} (distinct : (entries.map Prod.fst).Nodup)
    (printable : PrintableMembers entries) :
    readLock freezeHost (lockedTree entries) =
      .ok (.obj ((sortedMembers entries).map strMember)) := by
  have written := read_of_written (printableLines_document printable)
  exact readLock_of_written freezeHost distinct printable written.1 (by simp [lockedTree])

theorem emptyEntries_printable : PrintableMembers emptyEntries :=
  entriesOf_printable freezeHost fun _ mem => ⟨[], emptyTree_file mem⟩

theorem locked_checks_agree :
    verifyCommand freezeHost (lockedTree emptyEntries) = 0 ↔
      verifyExitCode freezeHost (lockedTree emptyEntries) = .ok 0 := by
  have lock := lockedTree_lock (entriesOf_distinct freezeHost emptyTree) emptyEntries_printable
  apply (checks_agree_iff freezeHost (lockedTree emptyEntries) lock).mpr
  left
  intro entry mem
  rw [← entriesOf_keys freezeHost emptyTree]
  exact List.mem_map_of_mem ((perm_sortedMembers _).mem_iff.mp mem)

/-- A right lock with one entry more passes the command and fails the call. -/
theorem extra_entry_divides :
    (∃ entries, readLock freezeHost (lockedTree readmeEntries) =
        .ok (.obj (List.map strMember entries))) ∧
      verifyCommand freezeHost (lockedTree readmeEntries) = 0 ∧
      verifyExitCode freezeHost (lockedTree readmeEntries) = .ok 1 := by
  have keys : readmeEntries.map Prod.fst = (frozenPaths ++ ["README.md"]).map text := by
    rw [readmeEntries, List.map_append, emptyEntries, entriesOf_keys, List.map_append]
    rfl
  have distinct : (readmeEntries.map Prod.fst).Nodup := by
    have paths : (frozenPaths ++ ["README.md"]).Nodup := by decide
    rw [keys]
    exact paths.map text_injective
  have printable : PrintableMembers readmeEntries := by
    intro entry mem
    rcases List.mem_append.mp mem with frozen | readme
    · exact emptyEntries_printable entry frozen
    · rw [List.mem_singleton.mp readme]
      exact ⟨printable_of_all (by decide), printable_of_all (by decide)⟩
  have lock := lockedTree_lock distinct printable
  have clean : Clean freezeHost (lockedTree readmeEntries)
      ((sortedMembers readmeEntries).map strMember) := by
    rw [clean_strMember_iff]
    intro path mem
    have entry := entriesOf_mem freezeHost emptyTree mem
    rw [hashAt_file freezeHost (emptyTree_file mem)] at entry
    exact ⟨[], lockedTree_file readmeEntries mem,
      lookup_sorted distinct (List.mem_append_left _ entry)⟩
  have extra : verifyExitCode freezeHost (lockedTree readmeEntries) ≠ .ok 0 := by
    rw [Ne, verifyExitCode_zero_iff lock]
    intro both
    have readme := both.2 (strMember (text "README.md", text emptyDigest))
      (List.mem_map_of_mem ((perm_sortedMembers _).mem_iff.mpr (by simp [readmeEntries])))
    obtain ⟨path, mem, same⟩ := List.mem_map.mp readme
    rw [text_injective same] at mem
    exact absurd mem (by decide)
  refine ⟨⟨_, lock⟩, (verifyCommand_zero_iff lock).mpr clean, ?_⟩
  rw [verifyExitCode_contains lock (lockedTree_contains readmeEntries)] at extra ⊢
  split at extra
  · exact absurd rfl extra
  · next differs => simp [differs]

end FreezeExperiment
