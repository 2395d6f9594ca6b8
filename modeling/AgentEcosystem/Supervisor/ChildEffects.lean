import AgentEcosystem.Supervisor.ChildSupervisor
import AgentEcosystem.Semantics.Runs

/-!
A call on the supervisor, seen from one child: whatever the call is, and whether
it returns or raises, each entry goes its own way, given by the call and the entry
alone.
-/
namespace ChildSupervisor
open AgentSchemas DecimalArithmetic OrderedDict Raising Runs

/-- What may be called on a supervisor. An `evaluate` is followed by the action it
    decides on, for the given reason. -/
inductive Operation where
  | register (run : ChildRun) (kill : KillCriteria)
  | heartbeat (childId : Uuid) (now : Option Datetime) (clock : ℤ)
  | recordSpend (childId : Uuid) (amountUsd : Decimal)
  | recordRevenue (childId : Uuid) (amountUsd : Decimal)
  | pause (childId : Uuid) (reason : String)
  | kill (childId : Uuid) (reason : String)
  | pauseAll
  | killAll (tasks : TaskOrder) (elapsed : ℚ) (deadlineSeconds : Seconds)
  | evaluate (childId : Uuid) (now : Option Datetime) (clock : ℤ) (reason : String)

def applyDecision (childId : Uuid) (decision : SupervisorDecision) (reason : String) :
    Supervised Unit :=
  match decision.action with
  | .keep => pure ()
  | .pause => pause childId reason
  | .kill => kill childId reason

def perform : Operation → Supervised Unit
  | .register run kill => register run kill
  | .heartbeat childId now clock => heartbeat childId now clock
  | .recordSpend childId amountUsd => recordSpend childId amountUsd
  | .recordRevenue childId amountUsd => recordRevenue childId amountUsd
  | .pause childId reason => pause childId reason
  | .kill childId reason => kill childId reason
  | .pauseAll => do let _ ← pauseAll
  | .killAll tasks elapsed deadlineSeconds => do let _ ← killAll tasks elapsed deadlineSeconds
  | .evaluate childId now clock reason => do
    applyDecision childId (← evaluate childId now clock) reason

def step (s : Children) (op : Operation) : Children := after (perform op) s

namespace ChildEntry

def stopped (status : ChildStatus) (reason : String) (e : ChildEntry) : ChildEntry :=
  { e with run := e.run.stopped status reason }

def beaten (at_ : Datetime) (e : ChildEntry) : ChildEntry :=
  { e with run := { e.run with lastHeartbeat := at_ } }

/-- The cumulative amount is written before the other sum is tried. -/
def spending (amountUsd : Decimal) (e : ChildEntry) : ChildEntry :=
  match sum e.cumulativeSpendUsd amountUsd, sum e.run.spentMtdUsd amountUsd with
  | .error _, _ => e
  | .ok cumulative, .error _ => { e with cumulativeSpendUsd := cumulative }
  | .ok cumulative, .ok spent =>
    { e with cumulativeSpendUsd := cumulative, run := { e.run with spentMtdUsd := spent } }

def earning (amountUsd : Decimal) (e : ChildEntry) : ChildEntry :=
  match sum e.run.revenueMtdUsd amountUsd with
  | .error _ => e
  | .ok revenue => { e with run := { e.run with revenueMtdUsd := revenue } }

def pausedIfLive (e : ChildEntry) : ChildEntry :=
  if e.run.status = .live then e.stopped .paused "operator" else e

def killedIfKillable (e : ChildEntry) : ChildEntry :=
  if e.run.status ∈ killable then e.stopped .killed "kill_switch" else e

def decided (action : DecidedAction) (reason : String) (e : ChildEntry) : ChildEntry :=
  match action with
  | .keep => e
  | .pause => e.stopped .paused reason
  | .kill => e.stopped .killed reason

def judged (now : Datetime) (reason : String) (e : ChildEntry) : ChildEntry :=
  match e.verdict now with
  | .ok decision => e.decided decision.action reason
  | .error _ => e

end ChildEntry

def effect (op : Operation) (j : Uuid) (e : ChildEntry) : ChildEntry :=
  match op with
  | .register _ _ => e
  | .heartbeat childId now clock => if j = childId then e.beaten (orClock now clock) else e
  | .recordSpend childId amountUsd => if j = childId then e.spending amountUsd else e
  | .recordRevenue childId amountUsd => if j = childId then e.earning amountUsd else e
  | .pause childId reason => if j = childId then e.stopped .paused reason else e
  | .kill childId reason => if j = childId then e.stopped .killed reason else e
  | .pauseAll => e.pausedIfLive
  | .killAll _ _ _ => e.killedIfKillable
  | .evaluate childId now clock reason =>
    if j = childId then e.judged (orClock now clock) reason else e

/- What every change of an entry keeps, a call keeps. -/
theorem effect_keeps {P : ChildEntry → Prop} {e : ChildEntry} {op : Operation} {j : Uuid}
    (here : P e) (beaten : ∀ at_, P (e.beaten at_))
    (spending : ∀ amountUsd, op = .recordSpend j amountUsd → P (e.spending amountUsd))
    (earning : ∀ amountUsd, P (e.earning amountUsd))
    (stopped : ∀ status reason, P (e.stopped status reason)) : P (effect op j e) := by
  have either : ∀ {childId : Uuid} {e' : ChildEntry}, (j = childId → P e') →
      P (if j = childId then e' else e) := by
    intro childId e' changed
    split
    · next same => exact changed same
    · exact here
  cases op with
  | register run kill => exact here
  | heartbeat childId now clock => exact either fun _ => beaten _
  | recordSpend childId amountUsd => exact either fun same => spending amountUsd (by rw [same])
  | recordRevenue childId amountUsd => exact either fun _ => earning amountUsd
  | pause childId reason => exact either fun _ => stopped .paused reason
  | kill childId reason => exact either fun _ => stopped .killed reason
  | pauseAll =>
    simp only [effect, ChildEntry.pausedIfLive]
    split
    · exact stopped _ _
    · exact here
  | killAll tasks elapsed deadlineSeconds =>
    simp only [effect, ChildEntry.killedIfKillable]
    split
    · exact stopped _ _
    · exact here
  | evaluate childId now clock reason =>
    apply either
    intro _
    unfold ChildEntry.judged
    split
    · next decision _ =>
      unfold ChildEntry.decided
      cases decision.action with
      | keep => exact here
      | pause => exact stopped _ _
      | kill => exact stopped _ _
    · exact here

def arrival (op : Operation) (j : Uuid) : Option ChildEntry :=
  match op with
  | .register run kill => if j = run.id then some { run := run, kill := kill } else none
  | _ => none

section Calls
variable {s : Children} {childId : Uuid} {e : ChildEntry}

theorem outcome_getEntry (found : s.get childId = some e) :
    outcome (getEntry childId) s = (.ok e, s) := by
  rw [getEntry, outcome_bind, outcome_get]
  simp only [found]
  rfl

theorem outcome_getEntry_unknown (absent : s.get childId = none) :
    outcome (getEntry childId) s = (.error (.unknownChild childId), s) := by
  rw [getEntry, outcome_bind, outcome_get]
  simp only [absent]
  rfl

theorem after_found {α : Type} (found : s.get childId = some e) (f : ChildEntry → Supervised α) :
    after (getEntry childId >>= f) s = after (f e) s := by
  rw [after, outcome_bind, outcome_getEntry found]
  rfl

theorem after_unknown {α : Type} (absent : s.get childId = none) (f : ChildEntry → Supervised α) :
    after (getEntry childId >>= f) s = s := by
  rw [after, outcome_bind, outcome_getEntry_unknown absent]

theorem after_getEntry {α : Type} {f : ChildEntry → Supervised α} {change : ChildEntry → ChildEntry}
    (here : ∀ e, s.get childId = some e → after (f e) s = s.modify childId change) :
    after (getEntry childId >>= f) s = s.modify childId change := by
  rcases found : s.get childId with _ | e
  · rw [after_unknown found, Dict.modify_absent found]
  · rw [after_found found]
    exact here e found

theorem after_heartbeat (now : Option Datetime) (clock : ℤ) :
    after (heartbeat childId now clock) s = s.modify childId (.beaten (orClock now clock)) :=
  after_getEntry fun _ _ => rfl

theorem after_pause (reason : String) :
    after (pause childId reason) s = s.modify childId (.stopped .paused reason) :=
  after_getEntry fun _ _ => rfl

theorem after_kill (reason : String) :
    after (kill childId reason) s = s.modify childId (.stopped .killed reason) :=
  after_getEntry fun _ _ => rfl

theorem after_recordRevenue (amountUsd : Decimal) :
    after (recordRevenue childId amountUsd) s = s.modify childId (.earning amountUsd) := by
  apply after_getEntry
  intro e found
  rcases added : sum e.run.revenueMtdUsd amountUsd with signal | revenue
  · have kept : e.earning amountUsd = e := by rw [ChildEntry.earning, added]
    exact (Dict.modify_eq_self found kept).symm
  · apply Dict.modify_eq found
    rw [ChildEntry.earning, added]

theorem after_recordSpend (amountUsd : Decimal) :
    after (recordSpend childId amountUsd) s = s.modify childId (.spending amountUsd) := by
  apply after_getEntry
  intro e found
  rcases first : sum e.cumulativeSpendUsd amountUsd with signal | cumulative
  · have kept : e.spending amountUsd = e := by rw [ChildEntry.spending, first]
    exact (Dict.modify_eq_self found kept).symm
  · rcases second : sum e.run.spentMtdUsd amountUsd with signal | spent
    · apply Dict.modify_eq found
      rw [ChildEntry.spending, first, second]
    · refine Dict.modify_modify.trans ?_
      apply Dict.modify_eq found
      rw [ChildEntry.spending, first, second]
      rfl

theorem after_applyDecision (decision : SupervisorDecision) (reason : String) :
    after (applyDecision childId decision reason) s =
      s.modify childId (.decided decision.action reason) := by
  unfold applyDecision
  cases decision.action with
  | keep => exact Dict.modify_id.symm
  | pause => exact after_pause reason
  | kill => exact after_kill reason

theorem after_evaluate (now : Option Datetime) (clock : ℤ) (reason : String) :
    after (evaluate childId now clock >>= fun d => applyDecision childId d reason) s =
      s.modify childId (.judged (orClock now clock) reason) := by
  rw [evaluate, bind_assoc]
  apply after_getEntry
  intro e found
  rcases judged : e.verdict (orClock now clock) with error | decision
  · have kept : e.judged (orClock now clock) reason = e := by rw [ChildEntry.judged, judged]
    exact (Dict.modify_eq_self found kept).symm
  · refine (after_applyDecision decision reason).trans ?_
    apply Dict.modify_eq found
    rw [ChildEntry.judged, judged]

theorem pausedIfLive_twice (e : ChildEntry) : e.pausedIfLive.pausedIfLive = e.pausedIfLive := by
  by_cases live : e.run.status = .live
  · have stopped : e.pausedIfLive = e.stopped .paused "operator" := if_pos live
    rw [stopped]
    exact if_neg ChildStatus.noConfusion
  · have kept : e.pausedIfLive = e := if_neg live
    rw [kept, kept]

theorem keys_foldl_modify (change : ChildEntry → ChildEntry) (ids : List Uuid) (s : Children) :
    (ids.foldl (fun t childId => t.modify childId change) s).keys = s.keys := by
  induction ids generalizing s with
  | nil => rfl
  | cons childId ids ih => exact (ih _).trans Dict.keys_modify

/- A loop over different children that are there: one change to each, and one more for
   each that counts. A child still is as it was when its turn comes. -/
theorem outcome_loop {f : ℕ → Uuid → Supervised ℕ} (change : ChildEntry → ChildEntry)
    (counts : ChildEntry → Bool)
    (body : ∀ (t : Children) childId e n, t.get childId = some e →
      outcome (f n childId) t =
        (.ok (if counts e then n + 1 else n), t.modify childId change))
    {ids : List Uuid} (different : ids.Nodup) (present : ∀ childId ∈ ids, childId ∈ s.keys) (n : ℕ) :
    outcome (ids.foldlM f n) s = (.ok (n + ids.countP fun childId => (s.get childId).any counts),
      ids.foldl (fun t childId => t.modify childId change) s) := by
  induction ids generalizing s n with
  | nil => rfl
  | cons childId ids ih =>
    obtain ⟨new, different⟩ := List.nodup_cons.mp different
    have there : s.get childId ≠ none := by
      rw [Ne, Dict.get_eq_none_iff, not_not]
      exact present childId List.mem_cons_self
    obtain ⟨e, found⟩ := Option.ne_none_iff_exists'.mp there
    have untouched : ∀ j ∈ ids, (s.modify childId change).get j = s.get j := by
      intro j mem
      have other : j ≠ childId := fun same => new (same ▸ mem)
      simp only [Dict.get_modify, if_neg other, Option.map_id']
    have later : ∀ j ∈ ids, j ∈ (s.modify childId change).keys := by
      intro j mem
      rw [Dict.keys_modify]
      exact present j (List.mem_cons_of_mem childId mem)
    have same : ids.countP (fun j => ((s.modify childId change).get j).any counts) =
        ids.countP fun j => (s.get j).any counts :=
      List.countP_congr fun j mem => by rw [untouched j mem]
    rw [List.foldlM_cons, outcome_bind, body s childId e n found]
    simp only
    rw [ih different later, same, List.countP_cons, found]
    cases counted : counts e with
    | true =>
      simp [counted]
      omega
    | false => simp [counted]

theorem outcome_kill {e : ChildEntry} (found : s.get childId = some e) (reason : String) :
    outcome (kill childId reason) s = (.ok (), s.modify childId (.stopped .killed reason)) := by
  rw [kill, outcome_bind, outcome_getEntry found]
  rfl

theorem outcome_pauseIfLive {e : ChildEntry} (found : s.get childId = some e) (n : ℕ) :
    outcome (pauseIfLive n childId) s =
      (.ok (if e.run.status = .live then n + 1 else n), s.modify childId .pausedIfLive) := by
  rw [pauseIfLive, outcome_bind, outcome_getEntry found]
  by_cases live : e.run.status = .live
  · simp only [if_pos live]
    rw [outcome_bind, pause, outcome_bind, outcome_getEntry found]
    have same : e.stopped .paused "operator" = e.pausedIfLive := (if_pos live).symm
    rw [← Dict.modify_eq found same]
    rfl
  · simp only [if_neg live]
    have kept : e.pausedIfLive = e := if_neg live
    rw [Dict.modify_eq_self found kept]
    rfl

theorem outcome_pauseAll (s : Children) : outcome pauseAll s =
    (.ok (s.keys.countP fun childId => (s.get childId).any fun e => e.run.status = .live),
      s.keys.foldl (fun t childId => t.modify childId .pausedIfLive) s) := by
  have ran := outcome_loop (f := pauseIfLive) (s := s) .pausedIfLive
    (fun e => e.run.status = .live) (fun t childId e n found => by
      rw [outcome_pauseIfLive found]
      simp only [decide_eq_true_eq])
    s.nodup (fun _ mem => mem) 0
  rw [Nat.zero_add] at ran
  exact ran

theorem get_after_pauseAll (j : Uuid) :
    (after pauseAll s).get j = (s.get j).map .pausedIfLive := by
  rw [after, outcome_pauseAll, Dict.get_foldl_modify pausedIfLive_twice]
  rcases found : s.get j with _ | e
  · rfl
  · rw [Option.map_some, Option.map_some, if_pos (Dict.mem_keys_of_get found)]

theorem mem_killTargets {e : ChildEntry} (found : s.get childId = some e) :
    childId ∈ killTargets s ↔ e.run.status ∈ killable := by
  constructor
  · intro mem
    obtain ⟨⟨k, v⟩, inside, rfl⟩ := List.mem_map.mp mem
    obtain ⟨item, chosen⟩ := List.mem_filter.mp inside
    rw [Dict.get_of_mem_items item] at found
    cases found
    exact of_decide_eq_true chosen
  · intro chosen
    exact List.mem_map.mpr ⟨(childId, e),
      List.mem_filter.mpr ⟨Dict.mem_items_of_get found, decide_eq_true chosen⟩, rfl⟩

theorem killTargets_subset (mem : childId ∈ killTargets s) : childId ∈ s.keys := by
  obtain ⟨p, inside, rfl⟩ := List.mem_map.mp mem
  exact List.mem_map.mpr ⟨p, List.mem_of_mem_filter inside, rfl⟩

theorem killTargets_nodup (s : Children) : (killTargets s).Nodup :=
  s.nodup.sublist (List.filter_sublist.map Prod.fst)

/-- In whatever order its tasks run and however long they take, `kill_all` counts
    all its targets. -/
theorem outcome_killAll (tasks : TaskOrder) (elapsed : ℚ) (deadlineSeconds : Seconds)
    (s : Children) : outcome (killAll tasks elapsed deadlineSeconds) s =
      (if deadlineSeconds.exceededBy elapsed then
        .error (.deadlineExceeded deadlineSeconds elapsed)
      else .ok ((killTargets s).length, elapsed),
      (tasks.order (killTargets s)).foldl
        (fun t childId => t.modify childId (.stopped .killed "kill_switch")) s) := by
  have ordered := tasks.perm (killTargets s)
  have ran := outcome_loop (f := killTask) (s := s) (.stopped .killed "kill_switch") (fun _ => true)
    (fun t childId e n found => by
      rw [killTask, outcome_bind, outcome_kill found]
      rfl)
    (ordered.nodup_iff.mpr (killTargets_nodup s))
    (fun childId mem => killTargets_subset (ordered.mem_iff.mp mem)) 0
  have all : (tasks.order (killTargets s)).countP
      (fun childId => (s.get childId).any fun _ => true) = (killTargets s).length := by
    rw [List.countP_eq_length.mpr, ordered.length_eq]
    intro childId mem
    have there := killTargets_subset (ordered.mem_iff.mp mem)
    rcases found : s.get childId with _ | e
    · exact absurd there (Dict.get_eq_none_iff.mp found)
    · rfl
  rw [Nat.zero_add, all] at ran
  rw [killAll, outcome_bind, outcome_get]
  simp only
  rw [outcome_bind, ran]
  simp only
  split <;> rfl

theorem get_after_killAll (tasks : TaskOrder) (elapsed : ℚ) (deadlineSeconds : Seconds) (j : Uuid) :
    (after (killAll tasks elapsed deadlineSeconds) s).get j = (s.get j).map .killedIfKillable := by
  have ordered := fun childId => (tasks.perm (killTargets s)).mem_iff (a := childId)
  rw [after, outcome_killAll,
    Dict.get_foldl_modify (f := ChildEntry.stopped .killed "kill_switch") fun _ => rfl]
  rcases found : s.get j with _ | e
  · rfl
  · rw [Option.map_some, Option.map_some, ChildEntry.killedIfKillable]
    simp only [ordered, mem_killTargets found]

theorem after_register (run : ChildRun) (kill : KillCriteria) :
    after (register run kill) s =
      if run.id ∈ s.keys then s else s.insert run.id { run := run, kill := kill } := by
  rw [register, after, outcome_bind, outcome_get]
  by_cases old : run.id ∈ s.keys
  · simp only [if_pos old]
    rfl
  · simp only [if_neg old]
    rfl

theorem get_after_register (run : ChildRun) (kill : KillCriteria) (j : Uuid) :
    (after (register run kill) s).get j = (s.get j).or (arrival (.register run kill) j) := by
  rw [after_register, arrival]
  by_cases old : run.id ∈ s.keys
  · rw [if_pos old]
    rcases found : s.get j with _ | e
    · rw [if_neg, Option.or_none]
      rintro rfl
      exact Dict.get_eq_none_iff.mp found old
    · rfl
  · rw [if_neg old, Dict.get_insert]
    by_cases here : j = run.id
    · rw [if_pos here, if_pos here, here, Dict.get_eq_none_iff.mpr old]
      rfl
    · rw [if_neg here, if_neg here, Option.or_none]

end Calls

theorem get_step (s : Children) (op : Operation) (j : Uuid) :
    (step s op).get j = ((s.get j).map (effect op j)).or (arrival op j) := by
  have one : ∀ {childId : Uuid} {change : ChildEntry → ChildEntry} {t : Children},
      t = s.modify childId change →
      t.get j = ((s.get j).map fun e => if j = childId then change e else e).or none := by
    rintro childId change _ rfl
    rw [Dict.get_modify, Option.or_none]
  cases op with
  | register run kill =>
    refine (get_after_register run kill j).trans ?_
    have kept : effect (.register run kill) j = id := rfl
    rw [kept, Option.map_id]
    rfl
  | heartbeat childId now clock => exact one (after_heartbeat now clock)
  | recordSpend childId amountUsd => exact one (after_recordSpend amountUsd)
  | recordRevenue childId amountUsd => exact one (after_recordRevenue amountUsd)
  | pause childId reason => exact one (after_pause reason)
  | kill childId reason => exact one (after_kill reason)
  | pauseAll =>
    rw [step, perform, after_ignored, get_after_pauseAll]
    exact Option.or_none.symm
  | killAll tasks elapsed deadlineSeconds =>
    rw [step, perform, after_ignored, get_after_killAll]
    exact Option.or_none.symm
  | evaluate childId now clock reason => exact one (after_evaluate now clock reason)

/-- A child once registered goes its own way through every run. -/
theorem get_run {s : Children} {j : Uuid} {e : ChildEntry} (found : s.get j = some e)
    (ops : List Operation) :
    (run step s ops).get j = some (run (fun e op => effect op j e) e ops) := by
  induction ops generalizing s e with
  | nil => exact found
  | cons op ops ih =>
    apply ih
    rw [get_step, found]
    rfl

end ChildSupervisor
