import AgentEcosystem.Supervisor.AutoKill

/-!
How a decision depends on the time at which it is made. While the amounts of a
child stay as they are, the day count only makes the deadlines of the kill rules
come true, so a child that would have been killed still is. The day count itself runs
on one clock only where no change of an offset lies between readings of one `tzinfo`.
-/
namespace ChildSupervisor
open AgentSchemas DecimalArithmetic OrderedDict Raising Runs

def Datetime.zone (d : Datetime) : Option ℕ := d.tzinfo.map TzInfo.object

def Datetime.offset (d : Datetime) : ℤ := (d.tzinfo.map TzInfo.utcoffset).getD 0

/-- The reading as one in UTC; a naive one stays what it is. -/
def Datetime.instant (d : Datetime) : ℤ := d.wall - d.offset

/-- If one `tzinfo` is behind both readings, it gives them one offset. -/
def Datetime.Steady (d d' : Datetime) : Prop := d.zone = d'.zone → d.offset = d'.offset

/-- `t1 <= t2` on the clock on which both are counted from the spawn: the wall clock of
    one `tzinfo` behind all three, or UTC where no offset changes since the spawn. -/
inductive Datetime.InOrder (spawnedAt t u : Datetime) : Prop
  | wallClock (first : t.zone = spawnedAt.zone) (second : u.zone = spawnedAt.zone)
      (le : t.wall ≤ u.wall)
  | instants (aware : t.aware = u.aware) (first : t.Steady spawnedAt)
      (second : u.Steady spawnedAt) (le : t.instant ≤ u.instant)

namespace Datetime
variable {spawnedAt t u : Datetime}

theorem sub_sameZone (same : t.zone = spawnedAt.zone) :
    t.sub spawnedAt = .ok (t.wall - spawnedAt.wall) := by
  unfold zone at same
  unfold sub
  split
  · rfl
  · next z z' aware aware' =>
    rw [aware, aware'] at same
    exact if_pos (Option.some.inj same)
  · next mixed notBoth =>
    rcases here : t.tzinfo with _ | z
    · rcases there : spawnedAt.tzinfo with _ | z'
      · exact absurd there (mixed here)
      · simp [here, there] at same
    · rcases there : spawnedAt.tzinfo with _ | z'
      · simp [here, there] at same
      · exact absurd there (notBoth z z' here)

theorem sub_steady (steady : t.Steady spawnedAt) (comparable : t.aware = spawnedAt.aware) :
    t.sub spawnedAt = .ok (t.instant - spawnedAt.instant) := by
  by_cases same : t.zone = spawnedAt.zone
  · have offsets := steady same
    rw [sub_sameZone same, instant, instant, offsets, sub_sub_sub_cancel_right]
  · unfold zone at same
    unfold aware at comparable
    unfold sub instant offset
    split
    · next naive naive' =>
      rw [naive, naive'] at same
      exact absurd rfl same
    · next z z' aware aware' =>
      rw [aware, aware'] at same ⊢
      exact if_neg fun object => same (congrArg some object)
    · next mixed notBoth =>
      rcases here : t.tzinfo with _ | z
      · rcases there : spawnedAt.tzinfo with _ | z'
        · exact absurd there (mixed here)
        · simp [here, there] at comparable
      · rcases there : spawnedAt.tzinfo with _ | z'
        · simp [here, there] at comparable
        · exact absurd there (notBoth z z' here)

theorem aware_of_zone (same : t.zone = u.zone) : t.aware = u.aware := by
  have some : ∀ d : Datetime, d.aware = d.zone.isSome := fun d => by simp [aware, zone]
  rw [some, some, same]

theorem InOrder.aware (le : InOrder spawnedAt t u) : t.aware = u.aware := by
  cases le with
  | wallClock first second _ => exact aware_of_zone (first.trans second.symm)
  | instants aware _ _ _ => exact aware

theorem sub_mono (le : InOrder spawnedAt t u) {elapsed : ℤ} (h : t.sub spawnedAt = .ok elapsed)
    (comparable : t.aware = spawnedAt.aware) :
    ∃ elapsed', u.sub spawnedAt = .ok elapsed' ∧ elapsed ≤ elapsed' := by
  cases le with
  | wallClock first second le =>
    cases (sub_sameZone first).symm.trans h
    exact ⟨_, sub_sameZone second, by omega⟩
  | instants aware first second le =>
    cases (sub_steady first comparable).symm.trans h
    exact ⟨_, sub_steady second (aware.symm.trans comparable), by omega⟩

end Datetime

theorem daysSince_mono {spawnedAt t u : Datetime} (le : Datetime.InOrder spawnedAt t u) {days : ℤ}
    (h : t.daysSince spawnedAt = .ok days) :
    ∃ days', u.daysSince spawnedAt = .ok days' ∧ days ≤ days' := by
  have comparable := daysSince_ok h
  obtain ⟨elapsed, subtracted, whole⟩ := ok_of_bind h
  cases whole
  obtain ⟨elapsed', subtracted', more⟩ := Datetime.sub_mono le subtracted comparable
  refine ⟨elapsed' / microsPerDay, by rw [Datetime.daysSince, subtracted']; rfl, ?_⟩
  exact Int.ediv_le_ediv (by decide) more

/- A test that comes later in time, or not at all, fails where the earlier one did. -/
theorem both_false {p q : Bool} {x : Except SupervisorError Bool} (weaker : p = true → q = true)
    (h : both (.ok q) x = .ok false) : both (.ok p) x = .ok false := by
  cases p with
  | false => rfl
  | true =>
    rw [weaker rfl] at h
    exact h

namespace ChildEntry
variable {e : ChildEntry} {t u : Datetime}

theorem killRuleHolds_mono (le : Datetime.InOrder e.run.spawnedAt t u)
    (holds : e.KillRuleHolds t) : e.KillRuleHolds u := by
  rcases holds with burnt | ⟨days, since, late, empty⟩ | ⟨days, since, old, below⟩
  · exact .inl burnt
  · obtain ⟨days', since', more⟩ := daysSince_mono le since
    exact .inr (.inl ⟨days', since', by omega, empty⟩)
  · obtain ⟨days', since', more⟩ := daysSince_mono le since
    exact .inr (.inr ⟨days', since', by omega, below⟩)

theorem unmasked_mono (le : Datetime.InOrder e.run.spawnedAt t u) (unmasked : e.Unmasked t) :
    e.Unmasked u :=
  ⟨le.aware.symm.trans unmasked.comparable, unmasked.withinBudget, unmasked.spendIsNumber⟩

theorem both_true {x y : Except SupervisorError Bool} (h : both x y = .ok true) :
    x = .ok true ∧ y = .ok true := by
  obtain ⟨first, held, h⟩ := ok_of_bind h
  cases first with
  | true => exact ⟨held, h⟩
  | false => cases h

theorem killRuleHolds_of_kill {reason : String} (h : e.verdict t = .ok ⟨.kill, reason⟩) :
    e.KillRuleHolds t := by
  obtain ⟨days, since, h⟩ := ok_of_bind h
  obtain ⟨breached, _, h⟩ := ok_of_bind h
  cases breached with
  | true => cases h
  | false =>
    obtain ⟨burnt, first, h⟩ := ok_of_bind h
    cases burnt with
    | true =>
      obtain ⟨spend, empty⟩ := both_true first
      exact .inl ⟨compared_ok spend, compared_ok empty⟩
    | false =>
      obtain ⟨late, second, h⟩ := ok_of_bind h
      cases late with
      | true =>
        obtain ⟨past, empty⟩ := both_true second
        exact .inr (.inl ⟨days, since, of_decide_eq_true (Except.ok.inj past), compared_ok empty⟩)
      | false =>
        obtain ⟨short, third, h⟩ := ok_of_bind h
        cases short with
        | true =>
          obtain ⟨old, below⟩ := both_true third
          exact .inr (.inr ⟨days, since, of_decide_eq_true (Except.ok.inj old),
            compared_ok below⟩)
        | false => cases h

theorem kill_lasts (le : Datetime.InOrder e.run.spawnedAt t u) {reason : String}
    (h : e.verdict t = .ok ⟨.kill, reason⟩) :
    ∃ reason', e.verdict u = .ok ⟨.kill, reason'⟩ :=
  kills_of_unmasked (killRuleHolds_mono le (killRuleHolds_of_kill h))
    (unmasked_mono le (unmasked_of_kill h))

theorem pause_lasts (le : Datetime.InOrder e.run.spawnedAt t u) {reason : String}
    (h : e.verdict t = .ok ⟨.pause, reason⟩) :
    ∃ reason', e.verdict u = .ok ⟨.pause, reason'⟩ := by
  obtain ⟨aware, breached⟩ := breached_of_verdict h rfl
  exact ⟨_, verdict_of_breached ⟨le.aware.symm.trans aware, breached⟩⟩

/- The tests that failed later fail now, and those that were not reached are not reached. -/
theorem kept_before (le : Datetime.InOrder e.run.spawnedAt t u) {reason : String}
    (h : e.verdict u = .ok ⟨.keep, reason⟩) :
    ∃ reason', e.verdict t = .ok ⟨.keep, reason'⟩ := by
  obtain ⟨days', since', h⟩ := ok_of_bind h
  obtain ⟨breached, budget, h⟩ := ok_of_bind h
  cases breached with
  | true => cases h
  | false =>
    obtain ⟨burnt, first, h⟩ := ok_of_bind h
    cases burnt with
    | true => cases h
    | false =>
      obtain ⟨late, second, h⟩ := ok_of_bind h
      cases late with
      | true => cases h
      | false =>
        obtain ⟨short, third, h⟩ := ok_of_bind h
        cases short with
        | true => cases h
        | false =>
          obtain ⟨days, since⟩ := daysSince_of_aware (le.aware.trans (daysSince_ok since'))
          obtain ⟨days'', again, fewer⟩ := daysSince_mono le since
          rw [since'] at again
          cases again
          have reached : ∀ limit : ℤ, decide (limit ≤ max 0 days) = true →
              decide (limit ≤ max 0 days') = true := by
            intro limit past
            have now := of_decide_eq_true past
            exact decide_eq_true (by omega)
          have second' := both_false (reached _) second
          have third' := both_false (reached _) third
          refine ⟨"ok", ?_⟩
          simp only [ChildEntry.verdict, since, budget, first, second', third', bind, Except.bind]
          rfl

structure SameTerms (e e' : ChildEntry) : Prop where
  spawnedAt : e'.run.spawnedAt = e.run.spawnedAt
  monthlyBudget : e'.run.monthlyBudgetUsd = e.run.monthlyBudgetUsd
  kill : e'.kill = e.kill

structure SameAmounts (e e' : ChildEntry) : Prop where
  spentMtd : e'.run.spentMtdUsd = e.run.spentMtdUsd
  revenueMtd : e'.run.revenueMtdUsd = e.run.revenueMtdUsd
  cumulativeSpend : e'.cumulativeSpendUsd = e.cumulativeSpendUsd

theorem sameTerms_run (e : ChildEntry) (j : Uuid) (ops : List Operation) :
    SameTerms e (Runs.run (fun e op => effect op j e) e ops) := by
  apply run_invariant (fun e op => effect op j e) (SameTerms e) _ ⟨rfl, rfl, rfl⟩
  intro e' op h
  have copied : ∀ {e'' : ChildEntry}, e''.run.spawnedAt = e'.run.spawnedAt →
      e''.run.monthlyBudgetUsd = e'.run.monthlyBudgetUsd → e''.kill = e'.kill →
      SameTerms e e'' :=
    fun spawned budget kill =>
      ⟨spawned.trans h.spawnedAt, budget.trans h.monthlyBudget, kill.trans h.kill⟩
  apply effect_keeps h
  · intro at_
    exact copied rfl rfl rfl
  · intro amountUsd _
    unfold spending
    split <;> exact copied rfl rfl rfl
  · intro amountUsd
    unfold earning
    split <;> exact copied rfl rfl rfl
  · intro status reason
    exact copied rfl rfl rfl

theorem verdict_same {e' : ChildEntry} (terms : e.SameTerms e') (amounts : e.SameAmounts e')
    (now : Datetime) : e'.verdict now = e.verdict now := by
  simp only [verdict, terms.spawnedAt, terms.monthlyBudget, terms.kill, amounts.spentMtd,
    amounts.revenueMtd, amounts.cumulativeSpend]

end ChildEntry

def Decides (s : Children) (childId : Uuid) (now : Datetime) (action : DecidedAction) : Prop :=
  ∀ clock, ∃ reason, (outcome (evaluate childId (some now) clock) s).1 = .ok ⟨action, reason⟩

theorem decides_iff {s : Children} {childId : Uuid} {e : ChildEntry}
    (found : s.get childId = some e) (now : Datetime) (action : DecidedAction) :
    Decides s childId now action ↔ ∃ reason, e.verdict now = .ok ⟨action, reason⟩ := by
  have decided := fun clock => evaluate_found (some now) clock found
  constructor
  · intro decides
    obtain ⟨reason, returned⟩ := decides 0
    exact ⟨reason, (decided 0).symm.trans returned⟩
  · rintro ⟨reason, returned⟩ clock
    exact ⟨reason, (decided clock).trans returned⟩

/-- Over a run that leaves the child's amounts as they are, a look that is later on the
    clock of the spawn kills or pauses whatever an earlier one would have killed or
    paused, and what it keeps was to be kept. -/
theorem decisions_stable {s : Children} {childId : Uuid} {e e' : ChildEntry}
    (found : s.get childId = some e) (ops : List Operation)
    (found' : (run step s ops).get childId = some e') (unchanged : e.SameAmounts e')
    {t u : Datetime} (le : Datetime.InOrder e.run.spawnedAt t u) :
    (Decides s childId t .kill → Decides (run step s ops) childId u .kill) ∧
    (Decides s childId t .pause → Decides (run step s ops) childId u .pause) ∧
    (Decides (run step s ops) childId u .keep → Decides s childId t .keep) := by
  have same : ∀ now, e'.verdict now = e.verdict now := by
    have reached := get_run found ops
    rw [found'] at reached
    cases reached
    exact ChildEntry.verdict_same (ChildEntry.sameTerms_run e childId ops) unchanged
  simp only [decides_iff found, decides_iff found', same]
  refine ⟨?_, ?_, ?_⟩
  · rintro ⟨reason, killed⟩
    exact ChildEntry.kill_lasts le killed
  · rintro ⟨reason, paused⟩
    exact ChildEntry.pause_lasts le paused
  · rintro ⟨reason, kept⟩
    exact ChildEntry.kept_before le kept

theorem overdue_child_killed :
    Decides (run step (run step Dict.empty [.register (budgetRun (.ofNat 0)) usualCriteria])
      [.heartbeat ⟨0xc1⟩ (some (.utc 0)) 0]) ⟨0xc1⟩ (.utc (40 * microsPerDay)) .kill := by
  have killed : Decides (run step Dict.empty [.register (budgetRun (.ofNat 0)) usualCriteria])
      ⟨0xc1⟩ (.utc (14 * microsPerDay)) .kill := fun _ => ⟨"no_revenue_by_deadline", rfl⟩
  have fortnight : Datetime.InOrder (.utc 0) (.utc (14 * microsPerDay))
      (.utc (40 * microsPerDay)) := .wallClock rfl rfl (by decide)
  have found : (run step Dict.empty [.register (budgetRun (.ofNat 0)) usualCriteria]).get ⟨0xc1⟩ =
      some { run := budgetRun (.ofNat 0), kill := usualCriteria } := rfl
  exact (decisions_stable found [.heartbeat ⟨0xc1⟩ (some (.utc 0)) 0] rfl ⟨rfl, rfl, rfl⟩
    fortnight).1 killed

def microsPerHour : ℤ := 3600000000

def winterRun : ChildRun :=
  { budgetRun (.ofNat 0) with spawnedAt := ⟨12 * microsPerHour, some ⟨1, -5 * microsPerHour⟩⟩ }

def winterChildren : Children := run step Dict.empty [.register winterRun usualCriteria]

def summerNoon : Datetime :=
  ⟨14 * microsPerDay + 12 * microsPerHour, some ⟨1, -4 * microsPerHour⟩⟩

def halfPastInUtc : Datetime := .utc (summerNoon.instant + microsPerHour / 2)

/-- The zone's own clock kills the child at noon, and half an hour later the clock in UTC
    keeps it. -/
theorem killed_at_noon_kept_later :
    summerNoon.instant ≤ halfPastInUtc.instant ∧
      Decides winterChildren ⟨0xc1⟩ summerNoon .kill ∧
      ¬ Decides winterChildren ⟨0xc1⟩ halfPastInUtc .kill := by
  refine ⟨by decide, fun _ => ⟨"no_revenue_by_deadline", rfl⟩, ?_⟩
  intro killed
  obtain ⟨reason, decided⟩ := killed 0
  have kept : (outcome (evaluate ⟨0xc1⟩ (some halfPastInUtc) 0) winterChildren).1 =
      .ok ⟨.keep, "ok"⟩ := rfl
  rw [kept] at decided
  cases decided

end ChildSupervisor
