import AgentEcosystem.Supervisor.KilledChildren
import Mathlib.Data.Set.Card

/-!
What the operator's PAUSE and KILL ALL leave behind. Both go through the whole
registry, each with its own idea of which children still run.
-/
namespace ChildSupervisor
open AgentSchemas DecimalArithmetic OrderedDict Raising Runs

def statusOf (s : Children) (childId : Uuid) : Option ChildStatus :=
  (s.get childId).map fun e => e.run.status

def statusChanged (s t : Children) : Set Uuid := {j | statusOf t j ≠ statusOf s j}

def changed (s t : Children) : Set Uuid := {j | t.get j ≠ s.get j}

theorem ncard_of_nodup {ids : List Uuid} (different : ids.Nodup) :
    {j | j ∈ ids}.ncard = ids.length := by
  have list : {j | j ∈ ids} = (ids.toFinset : Set Uuid) := by
    ext j
    simp
  rw [list, Set.ncard_coe_finset, List.toFinset_card_of_nodup different]

/-- Nobody runs or is about to, who had stopped is as before, and `n` children
    changed their status. -/
structure Halted (s t : Children) (n : ℕ) : Prop where
  halted : ∀ j e, t.get j = some e → e.run.status ≠ .live ∧ e.run.status ≠ .starting
  kept : ∀ j e, s.get j = some e → e.run.status ∈ [.paused, .killed, .archived] → t.get j = some e
  counted : (statusChanged s t).ncard = n

def PauseStopsAll (s : Children) : Prop :=
  ∃ n, (outcome pauseAll s).1 = .ok n ∧ Halted s (after pauseAll s) n

theorem statusOf_after_pauseAll (s : Children) (j : Uuid) :
    statusOf (after pauseAll s) j =
      if statusOf s j = some .live then some .paused else statusOf s j := by
  rw [statusOf, statusOf, get_after_pauseAll]
  rcases s.get j with _ | e
  · rfl
  · by_cases live : e.run.status = .live
    · simp [ChildEntry.pausedIfLive, ChildEntry.stopped, ChildRun.stopped, live]
    · simp [ChildEntry.pausedIfLive, live]

theorem pauseAll_counts (s : Children) :
    (outcome pauseAll s).1 = .ok (statusChanged s (after pauseAll s)).ncard := by
  have members : statusChanged s (after pauseAll s) = {j | j ∈ s.keys.filter fun childId =>
      (s.get childId).any fun e => e.run.status = .live} := by
    ext j
    change statusOf (after pauseAll s) j ≠ statusOf s j ↔ j ∈ s.keys.filter _
    rw [statusOf_after_pauseAll, List.mem_filter, statusOf]
    rcases found : s.get j with _ | e
    · simp
    · have there := Dict.mem_keys_of_get found
      by_cases live : e.run.status = .live
      · simp [there, live]
      · simp [live]
  have different : s.keys.Nodup := s.nodup
  rw [outcome_pauseAll, members, ncard_of_nodup (different.filter _),
    List.countP_eq_length_filter]

/-- PAUSE stops everything exactly when no child is about to start: `pause_all`
    passes over those that are `starting`. -/
theorem pauseAll_stops_iff (s : Children) :
    PauseStopsAll s ↔ ∀ j, statusOf s j ≠ some .starting := by
  constructor
  · rintro ⟨n, _, stopped⟩ j starting
    have still : statusOf (after pauseAll s) j = some .starting := by
      rw [statusOf_after_pauseAll, starting]
      rfl
    obtain ⟨e, found, status⟩ := Option.map_eq_some_iff.mp still
    exact (stopped.halted j e found).2 status
  · intro none
    refine ⟨_, pauseAll_counts s, ?_, ?_, rfl⟩
    · intro j e found
      have status := statusOf_after_pauseAll s j
      rw [statusOf, found, Option.map_some] at status
      by_cases live : statusOf s j = some .live
      · rw [if_pos live, Option.some_inj] at status
        simp [status]
      · rw [if_neg live] at status
        exact ⟨fun same => live (by rw [← status, same]), fun same => none j (by rw [← status, same])⟩
    · intro j e found stopped
      have notLive : e.run.status ≠ .live := by
        intro live
        rw [live] at stopped
        revert stopped
        decide
      rw [get_after_pauseAll, found, Option.map_some, ChildEntry.pausedIfLive, if_neg notLive]

def startingRun : ChildRun := { budgetRun (.ofNat 0) with status := .starting }

/-- A child that is about to start is not paused. -/
theorem starting_child_not_paused :
    ¬ PauseStopsAll (step Dict.empty (.register startingRun usualCriteria)) := by
  rintro ⟨n, _, stopped⟩
  exact (stopped.halted ⟨0xc1⟩ _ rfl).2 rfl

/-- Everybody who ran, was paused or was about to start is killed by the switch, and
    nothing else is different. -/
structure KilledAll (s t : Children) : Prop where
  killed : ∀ j e, s.get j = some e → e.run.status ∈ killable →
    t.get j = some (e.stopped .killed "kill_switch")
  kept : ∀ j e, s.get j = some e → e.run.status ∉ killable → t.get j = some e
  sameChildren : t.keys = s.keys

theorem killAll_kills (s : Children) (tasks : TaskOrder) (elapsed : ℚ) (deadlineSeconds : Seconds) :
    KilledAll s (after (killAll tasks elapsed deadlineSeconds) s) := by
  constructor
  · intro j e found target
    rw [get_after_killAll, found, Option.map_some, ChildEntry.killedIfKillable, if_pos target]
  · intro j e found other
    rw [get_after_killAll, found, Option.map_some, ChildEntry.killedIfKillable, if_neg other]
  · rw [after, outcome_killAll]
    exact keys_foldl_modify _ _ s

theorem killed_not_killable : ChildStatus.killed ∉ killable := by decide

/- The targets are those who change. -/
theorem changed_killAll {s t : Children} (kills : KilledAll s t) :
    changed s t = {j | j ∈ killTargets s} := by
  ext j
  change t.get j ≠ s.get j ↔ j ∈ killTargets s
  rcases found : s.get j with _ | e
  · have gone : t.get j = none := by
      rw [Dict.get_eq_none_iff, kills.sameChildren]
      exact Dict.get_eq_none_iff.mp found
    have noTarget : j ∉ killTargets s := fun target =>
      Dict.get_eq_none_iff.mp found (killTargets_subset target)
    simp [gone, noTarget]
  · rw [mem_killTargets found]
    by_cases target : e.run.status ∈ killable
    · rw [kills.killed j e found target]
      have other : e.stopped .killed "kill_switch" ≠ e := by
        intro same
        rw [← same] at target
        exact killed_not_killable target
      simp [other, target]
    · rw [kills.kept j e found target]
      simp [target]

theorem killTargets_empty {s t : Children} (kills : KilledAll s t) : killTargets t = [] := by
  apply List.eq_nil_iff_forall_not_mem.mpr
  intro j target
  have there := killTargets_subset target
  rw [kills.sameChildren] at there
  rcases found : s.get j with _ | e
  · exact Dict.get_eq_none_iff.mp found there
  · by_cases running : e.run.status ∈ killable
    · exact killed_not_killable ((mem_killTargets (kills.killed j e found running)).mp target)
    · exact running ((mem_killTargets (kills.kept j e found running)).mp target)

/-- For every registry, every order of the tasks and however long they take:
    `kill_all` kills whoever it is to kill and leaves the rest as it was, whether it
    returns the number of those it killed or raises because it took too long, and
    there is nothing left for a second one. -/
theorem killAll_complete (s : Children) (tasks : TaskOrder) (elapsed : ℚ)
    (deadlineSeconds : Seconds) : ∃ t,
    KilledAll s t ∧
    outcome (killAll tasks elapsed deadlineSeconds) s =
      (if deadlineSeconds.exceededBy elapsed then
        .error (.deadlineExceeded deadlineSeconds elapsed)
      else .ok ((changed s t).ncard, elapsed), t) ∧
    ∀ tasks' elapsed' deadlineSeconds', outcome (killAll tasks' elapsed' deadlineSeconds') t =
      (if deadlineSeconds'.exceededBy elapsed' then
        .error (.deadlineExceeded deadlineSeconds' elapsed')
      else .ok (0, elapsed'), t) := by
  have kills := killAll_kills s tasks elapsed deadlineSeconds
  refine ⟨after (killAll tasks elapsed deadlineSeconds) s, kills, ?_, ?_⟩
  · rw [changed_killAll kills, ncard_of_nodup (killTargets_nodup s)]
    exact Prod.ext (by rw [outcome_killAll]) rfl
  · intro tasks' elapsed' deadlineSeconds'
    have none := killTargets_empty kills
    have order : tasks'.order [] = [] := (tasks'.perm []).eq_nil
    rw [outcome_killAll, none, order]
    rfl

end ChildSupervisor
