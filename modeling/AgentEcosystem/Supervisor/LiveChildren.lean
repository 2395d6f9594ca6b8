import AgentEcosystem.Mother.LadderRuns
import AgentEcosystem.Supervisor.KillSwitch

/-!
Who is live. A child becomes live by being registered live and in no other way: no
call revives one that is starting, paused, killed or archived. The children who live
therefore only ever leave the list, in their order, and a gate on registration bounds
how many there are.
-/
namespace ChildSupervisor
open AgentSchemas DecimalArithmetic OrderedDict Raising Runs ExpansionLadder

def liveArrival : Operation → Option Uuid
  | .register run _ => if run.status = .live then some run.id else none
  | _ => none

theorem liveIds_eq (s : Children) :
    liveIds s = s.keys.filter fun j => statusOf s j = some .live := by
  unfold liveIds Dict.keys
  rw [List.filter_map]
  congr 1
  apply List.filter_congr
  rintro ⟨j, e⟩ mem
  simp [statusOf, Dict.get_of_mem_items mem]

theorem liveIds_nodup (s : Children) : (liveIds s).Nodup := by
  rw [liveIds_eq]
  exact List.Nodup.filter _ s.nodup

def newKeys (s : Children) : Operation → List Uuid
  | .register run _ => if run.id ∈ s.keys then [] else [run.id]
  | _ => []

theorem keys_insert {s : Children} {k : Uuid} (new : k ∉ s.keys) (e : ChildEntry) :
    (s.insert k e).keys = s.keys ++ [k] := by
  have added : s.insert k e = ⟨s.items ++ [(k, e)], Dict.nodup_snoc new e⟩ := dif_pos new
  rw [added]
  exact List.map_append

theorem keys_step (s : Children) (op : Operation) :
    (step s op).keys = s.keys ++ newKeys s op := by
  have one : ∀ {childId : Uuid} {change : ChildEntry → ChildEntry} {t : Children},
      t = s.modify childId change → t.keys = s.keys ++ [] := by
    rintro childId change _ rfl
    rw [Dict.keys_modify, List.append_nil]
  cases op with
  | register run kill =>
    change (after (register run kill) s).keys = _
    rw [after_register, newKeys]
    split
    · exact (List.append_nil _).symm
    · next new => exact keys_insert new _
  | heartbeat childId now clock => exact one (after_heartbeat now clock)
  | recordSpend childId amountUsd => exact one (after_recordSpend amountUsd)
  | recordRevenue childId amountUsd => exact one (after_recordRevenue amountUsd)
  | pause childId reason => exact one (after_pause reason)
  | kill childId reason => exact one (after_kill reason)
  | pauseAll =>
    rw [step, perform, after_ignored, after, outcome_pauseAll]
    exact (keys_foldl_modify _ _ s).trans (List.append_nil _).symm
  | killAll tasks elapsed deadlineSeconds =>
    rw [step, perform, after_ignored, after, outcome_killAll]
    exact (keys_foldl_modify _ _ s).trans (List.append_nil _).symm
  | evaluate childId now clock reason => exact one (after_evaluate now clock reason)

theorem live_before {op : Operation} {j : Uuid} {e : ChildEntry}
    (live : (effect op j e).run.status = .live) : e.run.status = .live := by
  have either : ∀ {childId : Uuid} {e' : ChildEntry}, (e'.run.status = .live →
      e.run.status = .live) → (if j = childId then e' else e).run.status = .live →
      e.run.status = .live := by
    intro childId e' back
    split
    · exact back
    · exact id
  cases op with
  | register run kill => exact live
  | heartbeat childId now clock =>
    apply either _ live
    exact fun beaten => beaten
  | recordSpend childId amountUsd =>
    apply either _ live
    rw [spending_status]
    exact id
  | recordRevenue childId amountUsd =>
    apply either _ live
    rw [earning_status]
    exact id
  | pause childId reason => exact either (fun paused => by cases paused) live
  | kill childId reason => exact either (fun killed => by cases killed) live
  | pauseAll =>
    simp only [effect, ChildEntry.pausedIfLive] at live
    split at live
    · next here => exact here
    · exact live
  | killAll tasks elapsed deadlineSeconds =>
    simp only [effect, ChildEntry.killedIfKillable] at live
    split at live
    · cases live
    · exact live
  | evaluate childId now clock reason =>
    apply either _ live
    unfold ChildEntry.judged
    split
    · next decision _ =>
      unfold ChildEntry.decided
      cases decision.action with
      | keep => exact id
      | pause => exact fun paused => by cases paused
      | kill => exact fun killed => by cases killed
    · exact id

theorem live_before_step {s : Children} {op : Operation} {j : Uuid} (there : j ∈ s.keys)
    (live : statusOf (step s op) j = some .live) : statusOf s j = some .live := by
  unfold statusOf at live ⊢
  rw [get_step] at live
  rcases found : s.get j with _ | e
  · exact absurd there (Dict.get_eq_none_iff.mp found)
  · rw [found, Option.map_some, Option.some_or, Option.map_some] at live
    exact congrArg some (live_before (Option.some_inj.mp live))

theorem live_newKeys (s : Children) (op : Operation) :
    ((newKeys s op).filter fun j => statusOf (step s op) j = some .live).Sublist
      (liveArrival op).toList := by
  cases op with
  | register run kill =>
    by_cases old : run.id ∈ s.keys
    · have none : newKeys s (.register run kill) = [] := if_pos old
      rw [none]
      exact List.nil_sublist _
    · have new : newKeys s (.register run kill) = [run.id] := if_neg old
      have registered : statusOf (step s (.register run kill)) run.id = some run.status := by
        rw [statusOf, get_step, Dict.get_eq_none_iff.mpr old, arrival, if_pos rfl]
        rfl
      rw [new]
      by_cases live : run.status = .live
      · rw [liveArrival, if_pos live]
        exact List.filter_sublist
      · rw [List.filter_singleton, registered, decide_eq_false (by simpa using live)]
        exact List.nil_sublist _
  | _ => exact List.nil_sublist _

theorem liveIds_step (s : Children) (op : Operation) :
    (liveIds (step s op)).Sublist (liveIds s ++ (liveArrival op).toList) := by
  rw [liveIds_eq, liveIds_eq, keys_step, List.filter_append]
  apply List.Sublist.append _ (live_newKeys s op)
  have stays : s.keys.filter (fun j => statusOf (step s op) j = some .live) =
      (s.keys.filter fun j => statusOf s j = some .live).filter
        fun j => statusOf (step s op) j = some .live := by
    rw [List.filter_filter]
    apply List.filter_congr
    intro j there
    by_cases live : statusOf (step s op) j = some .live
    · simp [live, live_before_step there live]
    · simp [live]
  rw [stays]
  exact List.filter_sublist

/-- The live children of a run, in the order in which they were registered. -/
theorem liveIds_run (s : Children) (ops : List Operation) :
    (liveIds (run step s ops)).Sublist (liveIds s ++ ops.filterMap liveArrival) := by
  induction ops generalizing s with
  | nil => rw [List.filterMap_nil, List.append_nil]; exact List.Sublist.refl _
  | cons op ops ih =>
    have first := (liveIds_step s op).append_right (ops.filterMap liveArrival)
    have arrivals : (op :: ops).filterMap liveArrival =
        (liveArrival op).toList ++ ops.filterMap liveArrival := by
      rw [List.filterMap_cons]
      cases liveArrival op <;> rfl
    rw [List.append_assoc, ← arrivals] at first
    exact (ih (step s op)).trans first

/-- A live child is registered only where the gate allows one more, at the revenue and
    the channels of that moment and with the children that are live then. -/
def Gated (s : Children) (op : Operation) : Prop :=
  ∀ j, liveArrival op = some j →
    ∃ revenue channels, Allowed revenue channels (liveIds s).length

theorem liveIds_gated {s : Children} {op : Operation} (gated : Gated s op)
    (within : (liveIds s).length ≤ largestCap) : (liveIds (step s op)).length ≤ largestCap := by
  have length := (liveIds_step s op).length_le
  rw [List.length_append] at length
  rcases arrived : liveArrival op with _ | j
  · rw [arrived] at length
    exact length.trans within
  · obtain ⟨revenue, channels, gate, proposed, isAllowed⟩ := gated j arrived
    have stepped := ladderStep_within (liveIds s).length (.propose revenue channels) within
    simp only [ladderStep, proposed, if_pos isAllowed] at stepped
    rw [arrived] at length
    exact length.trans stepped

/-- No operation revives a child: whoever is live at the end of a run was live at its
    start or is registered live during it, in that order and once. If every such
    registration passes the gate, no more children live than the ladder's largest cap,
    at any point of any run. -/
theorem live_children (ops : List Operation) :
    (liveIds (run step Dict.empty ops)).Sublist (ops.filterMap liveArrival) ∧
    (liveIds (run step Dict.empty ops)).Nodup ∧
    (Meets step Gated Dict.empty ops →
      Throughout step (fun s => (liveIds s).length ≤ largestCap) Dict.empty ops) := by
  refine ⟨?_, liveIds_nodup _, ?_⟩
  · have whole := liveIds_run Dict.empty ops
    exact whole
  · exact throughout_of_meets step (fun s => (liveIds s).length ≤ largestCap)
      (fun s op gated within => liveIds_gated gated within) (Nat.zero_le _)

theorem first_child_within :
    Throughout step (fun s => (liveIds s).length ≤ largestCap) Dict.empty
      [.register (budgetRun (.ofNat 0)) usualCriteria] := by
  apply (live_children [.register (budgetRun (.ofNat 0)) usualCriteria]).2.2
  have allowed : Allowed (.ofNat 0) 0 0 := ⟨⟨true, "ok", 1, 1⟩, by decide, rfl⟩
  exact ⟨fun _ _ => ⟨.ofNat 0, 0, allowed⟩, trivial⟩

end ChildSupervisor
