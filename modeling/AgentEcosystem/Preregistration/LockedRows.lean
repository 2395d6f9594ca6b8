import AgentEcosystem.Preregistration.Tampering
import AgentEcosystem.Decimal.HasValue
import AgentEcosystem.Semantics.LockedTables
import AgentEcosystem.Semantics.Runs

/-!
Preregistrations behind the trigger of the migration, which raises on an update of a
locked row. What `create` returned is then read back and analyzed as it was created,
whatever else the database is told to do, as long as the row is not deleted.
-/
namespace Preregistration
open AgentSchemas CanonicalJson DecimalArithmetic OrderedDict Raising UnicodeText Runs
open LockedTables Decimal

/-- The table with its trigger `trg_prereg_lock`. -/
def tableRules (host : Host) : Rules String PreRegistrationRow where
  key := PreRegistrationRow.id
  fits := host.columnsTake
  locked := PreRegistrationRow.locked

inductive LockedError where
  | prereg (e : PreregError)
  | preRegistrationLocked (message : String)
  deriving DecidableEq, Repr

def ensureLockedAndExists (host : Host) (preregId : String) (table : Table) :
    Except LockedError PreRegistration := do
  let prereg ← (get host preregId table).mapError .prereg
  if !prereg.locked then
    throw (.preRegistrationLocked ("prereg " ++ preregId ++ " is not locked"))
  return prereg

structure Draft where
  id : Uuid
  now : Timestamp
  verticalTitle : String
  hypothesis : String
  primaryMetric : String
  primaryThreshold : Decimal
  measurementWindowDays : ℤ
  analysisPlan : String
  stoppingRule : String

def Draft.create (host : Host) (d : Draft) (table : Table) :
    Except PreregError (PreRegistration × Table) :=
  Preregistration.create host d.id d.now d.verticalTitle d.hypothesis d.primaryMetric
    d.primaryThreshold d.measurementWindowDays d.analysisPlan d.stoppingRule table

/-- A registration, or any other statement on the table. -/
inductive DbAction where
  | create (d : Draft)
  | sql (s : Statement PreRegistrationRow)

def act (host : Host) (table : Table) : DbAction → Table
  | .create d =>
    match d.create host table with
    | .ok (_, table') => table'
    | .error _ => table
  | .sql s => settle (tableRules host) table s

def LeavesRow (row : PreRegistrationRow) : DbAction → Prop
  | .create _ => True
  | .sql s => Spares row s

section Actions
variable {host : Host} {table table' : Table} {row : PreRegistrationRow} {prereg : PreRegistration}

theorem keyed_insert (keyed : (tableRules host).Keyed table) :
    (tableRules host).Keyed (table ++ [row]) ↔ ∀ other ∈ table, other.id ≠ row.id := by
  rw [Rules.Keyed, List.map_append, List.nodup_append]
  constructor
  · rintro ⟨_, _, apart⟩ other mem
    exact apart _ (List.mem_map_of_mem mem) _ (by simp [tableRules])
  · intro unique
    refine ⟨keyed, List.nodup_singleton _, ?_⟩
    intro key there key' here
    obtain ⟨other, mem, rfl⟩ := List.mem_map.mp there
    rw [List.mem_singleton.mp here]
    exact unique other mem

theorem insertRow_execute (keyed : (tableRules host).Keyed table) :
    execute (tableRules host) table (.insert row) = (insertRow host row table).toOption := by
  have same : (host.columnsTake row = true ∧ (tableRules host).Keyed (table ++ [row])) ↔
      (host.columnsTake row = true ∧ ∀ other ∈ table, other.id ≠ row.id) := by
    rw [keyed_insert keyed]
  unfold insertRow
  by_cases accepted : host.columnsTake row = true ∧ ∀ other ∈ table, other.id ≠ row.id
  · rw [if_pos accepted]
    exact if_pos (same.mpr accepted)
  · rw [if_neg accepted]
    exact if_neg (mt same.mp accepted)

/-- A registration is the insertion of one row, or nothing. -/
theorem act_settles (keyed : (tableRules host).Keyed table) (a : DbAction) :
    act host table a = table ∨ ∃ s, act host table a = settle (tableRules host) table s ∧
      ∀ row, LeavesRow row a → Spares row s := by
  cases a with
  | sql s => exact .inr ⟨s, rfl, fun _ leaves => leaves⟩
  | create d =>
    rcases created : d.create host table with e | ⟨prereg, table'⟩
    · left
      simp only [act, created]
    · right
      have put := created
      obtain ⟨provisional, _, put⟩ := ok_of_bind put
      obtain ⟨lockHash, _, put⟩ := ok_of_bind put
      obtain ⟨stored, _, put⟩ := ok_of_bind put
      obtain ⟨inserted, put, same⟩ := ok_of_bind put
      cases same
      refine ⟨.insert (rowOf prereg), ?_, fun _ _ => trivial⟩
      simp only [act, created]
      rw [settle, insertRow_execute keyed, put]
      rfl

theorem keyed_act (keyed : (tableRules host).Keyed table) (a : DbAction) :
    (tableRules host).Keyed (act host table a) := by
  rcases act_settles keyed a with same | ⟨s, same, _⟩
  · rw [same]
    exact keyed
  · rw [same]
    exact keyed_settle keyed s

theorem mem_act (keyed : (tableRules host).Keyed table) (mem : row ∈ table)
    (locked : row.locked = true) {a : DbAction} (leaves : LeavesRow row a) :
    row ∈ act host table a := by
  rcases act_settles keyed a with same | ⟨s, same, spares⟩
  · rw [same]
    exact mem
  · rw [same]
    exact mem_settle mem locked (spares row leaves)

end Actions

section Created
variable {host : Host} {d : Draft} {table table' : Table} {prereg : PreRegistration}

theorem locked_of_dump {p q : Fields} (same : p.modelDump = q.modelDump) : p.locked = q.locked := by
  have held : ∀ f : Fields, f.modelDump.get (text "locked") = some (.bool f.locked) := by
    intro f
    simp [Fields.modelDump, Dict.get, text_eq_iff]
  have both := (held p).symm.trans ((congrArg (Dict.get · (text "locked")) same).trans (held q))
  exact PyValue.bool.inj (Option.some.inj both)

theorem create_locked (dumpsBack : DumpsBack host)
    (created : d.create host table = .ok (prereg, table')) : prereg.locked = true := by
  obtain ⟨provisional, validated, created⟩ := ok_of_bind created
  obtain ⟨lockHash, hashed, created⟩ := ok_of_bind created
  obtain ⟨stored, attached, created⟩ := ok_of_bind created
  obtain ⟨inserted, _, created⟩ := ok_of_bind created
  cases created
  obtain ⟨_, bytes, _, _, encoded⟩ := (content_flat provisional).bytes
  rw [computeLockHash_content host encoded] at hashed
  cases hashed
  let sealed : PreRegistration :=
    ⟨{ provisional.toFields with lockHash := host.sha256.hexdigest bytes },
      errors_lockHash provisional.valid (hexdigest_fits host.sha256 bytes)⟩
  rw [insert_lockHash] at attached
  have dumped : prereg.modelDump = sealed.modelDump := dumpsBack sealed prereg attached
  rw [locked_of_dump dumped]
  change provisional.locked = true
  rw [validate_ok validated]

theorem threshold_finite (p : PreRegistration) : ∃ x, p.primaryThreshold = .finite x := by
  have checks := errors_eq_nil.mp p.valid
  simp only [Fields.checks, List.forall_mem_cons] at checks
  have positive : isPositive p.primaryThreshold = true := checks.2.2.1
  unfold isPositive at positive
  split at positive
  · next x threshold => exact ⟨x, threshold⟩
  · cases positive

def genuineResult (prereg : PreRegistration) (threshold observed : FiniteDecimal) :
    AnalysisResult :=
  let met := decide (threshold.toRat ≤ observed.toRat)
  ⟨prereg.id.str, met, .finite observed, .finite threshold, true, notes true met⟩

/-- After any actions, a registration that is accepted is final: behind the trigger
    no later action but a deletion changes what is read back under its identifier or
    how any observation is judged. -/
theorem registration_final (dumpsBack : DumpsBack host) (before : List DbAction)
    (created : d.create host (run (act host) [] before) = .ok (prereg, table'))
    {later : List DbAction} (leaves : ∀ a ∈ later, LeavesRow (rowOf prereg) a) :
    ensureLockedAndExists host prereg.id.str (run (act host) table' later) = .ok prereg ∧
    ∃ threshold, prereg.primaryThreshold = .finite threshold ∧ ∀ observed : FiniteDecimal,
      (get host prereg.id.str (run (act host) table' later) >>= fun p =>
        analyze host p (.finite observed)) = .ok (genuineResult prereg threshold observed) := by
  have empty : (tableRules host).Keyed [] := List.nodup_nil
  have keyed : (tableRules host).Keyed (run (act host) [] before) :=
    run_invariant _ (tableRules host).Keyed (fun _ a kept => keyed_act kept a) empty _
  obtain ⟨sealed, valid, added, _⟩ := create_spec dumpsBack created
  have keyed' : (tableRules host).Keyed table' := by
    have kept := keyed_act keyed (.create d)
    simp only [act, created] at kept
    exact kept
  have stays := meets_invariant (act host)
    (fun rows => (tableRules host).Keyed rows ∧ rowOf prereg ∈ rows)
    (fun _ a spared kept => ⟨keyed_act kept.1 a, mem_act kept.1 kept.2 rfl spared⟩)
    ⟨keyed', by simp [added]⟩ ((meets_iff_forall (act host)).mpr leaves)
  have read : get host prereg.id.str (run (act host) table' later) = .ok prereg := by
    have found := filter_key stays.1 stays.2
    have mine : (run (act host) table' later).filter (fun row => row.id = prereg.id.str) =
        [rowOf prereg] := found
    rw [get, mine]
    exact valid
  refine ⟨?_, ?_⟩
  · have locked := create_locked dumpsBack created
    simp only [ensureLockedAndExists, read, Except.mapError, bind, Except.bind, locked]
    rfl
  · obtain ⟨threshold, finite⟩ := threshold_finite prereg
    refine ⟨threshold, finite, ?_⟩
    intro observed
    have met : prereg.primaryThreshold.le (.finite observed) =
        .ok (decide (threshold.toRat ≤ observed.toRat)) := by
      rw [finite]
      exact le_hasValue (hasValue_finite threshold) (hasValue_finite observed)
    rw [analyze_read read, analyze_eq (verifyHash_sealed host sealed) met, finite]
    rfl

end Created

def badgeEntry : Draft where
  id := ⟨0x2a⟩
  now := ⟨"2026-04-18T00:00:00Z"⟩
  verticalTitle := badgeDraft.verticalTitle
  hypothesis := badgeDraft.hypothesis
  primaryMetric := badgeDraft.primaryMetric
  primaryThreshold := .ofNat 500
  measurementWindowDays := 30
  analysisPlan := badgeDraft.analysisPlan
  stoppingRule := badgeDraft.stoppingRule

def moveGoalposts : Statement PreRegistrationRow :=
  .update (fun _ => true) fun row => { row with payloadJson := resealedBadge.modelDump.value }

theorem goalposts_stay :
    ensureLockedAndExists badgeHost badge.id.str
      (run (act badgeHost) [rowOf badge] [.sql moveGoalposts]) = .ok badge := by
  have created : badgeEntry.create badgeHost (run (act badgeHost) [] []) =
      .ok (badge, [rowOf badge]) := badge_created
  apply (registration_final badge_dumpsBack [] created _).1
  intro a mem
  rw [List.mem_singleton.mp mem]
  trivial

end Preregistration
