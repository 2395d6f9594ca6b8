import AgentEcosystem.Semantics.Views
import AgentEcosystem.Supervisor.KilledChildren

/-!
Operations on different children in any order. A child's entry is decided by the
calls that concern the child, in their order, so no interleaving with what happens
to the others can lose a call or count it twice.
-/
namespace ChildSupervisor
open AgentSchemas DecimalArithmetic OrderedDict Raising Runs

def concerns (j : Uuid) : Operation → Bool
  | .register run _ => run.id = j
  | .heartbeat childId _ _ => childId = j
  | .recordSpend childId _ => childId = j
  | .recordRevenue childId _ => childId = j
  | .pause childId _ => childId = j
  | .kill childId _ => childId = j
  | .pauseAll => true
  | .killAll _ _ _ => true
  | .evaluate childId _ _ _ => childId = j

def turn (j : Uuid) (found : Option ChildEntry) (op : Operation) : Option ChildEntry :=
  (found.map (effect op j)).or (arrival op j)

theorem effect_elsewhere {op : Operation} {j : Uuid} (other : concerns j op = false)
    (e : ChildEntry) : effect op j e = e := by
  have apart : ∀ {childId : Uuid}, decide (childId = j) = false → j ≠ childId := by
    intro childId differs same
    exact of_decide_eq_false differs same.symm
  cases op with
  | register run kill => rfl
  | heartbeat childId now clock => exact if_neg (apart other)
  | recordSpend childId amountUsd => exact if_neg (apart other)
  | recordRevenue childId amountUsd => exact if_neg (apart other)
  | pause childId reason => exact if_neg (apart other)
  | kill childId reason => exact if_neg (apart other)
  | pauseAll => cases other
  | killAll tasks elapsed deadlineSeconds => cases other
  | evaluate childId now clock reason => exact if_neg (apart other)

theorem arrival_elsewhere {op : Operation} {j : Uuid} (other : concerns j op = false) :
    arrival op j = none := by
  cases op with
  | register run kill => exact if_neg fun same => of_decide_eq_false other same.symm
  | _ => rfl

theorem children_local :
    Local step (fun (s : Children) j => s.get j) concerns turn := by
  constructor
  · intro s op j _
    exact get_step s op j
  · intro s op j other
    have id : effect op j = id := funext (effect_elsewhere other)
    change (step s op).get j = s.get j
    rw [get_step, arrival_elsewhere other, id, Option.map_id, Option.or_none]
    rfl

theorem keys_perm {s t : Children} (same : ∀ j, s.get j = t.get j) : s.keys.Perm t.keys := by
  apply (List.perm_ext_iff_of_nodup s.nodup t.nodup).mpr
  intro j
  have absent : j ∉ s.keys ↔ j ∉ t.keys := by
    rw [← Dict.get_eq_none_iff, ← Dict.get_eq_none_iff, same]
  exact not_iff_not.mp absent

theorem evaluate_congr {s t : Children} {childId : Uuid} (same : s.get childId = t.get childId)
    (now : Option Datetime) (clock : ℤ) :
    (outcome (evaluate childId now clock) s).1 = (outcome (evaluate childId now clock) t).1 := by
  rw [evaluate, outcome_bind, outcome_bind]
  rcases found : s.get childId with _ | e
  · rw [outcome_getEntry_unknown found, outcome_getEntry_unknown (same ▸ found)]
  · rw [outcome_getEntry found, outcome_getEntry (same ▸ found)]
    dsimp only
    rcases e.verdict (orClock now clock) with err | decision <;> rfl

/-- Two interleavings of the same calls, as each child sees them, leave every child
    with the same entry, the same children registered and the same decisions to come. -/
theorem interleaving_irrelevant (s : Children) (ops ops' : List Operation)
    (same : ∀ j, ops.filter (concerns j) = ops'.filter (concerns j)) :
    (∀ j, (run step s ops).get j = (run step s ops').get j) ∧
    (run step s ops).keys.Perm (run step s ops').keys ∧
    ∀ j now clock, (outcome (evaluate j now clock) (run step s ops)).1 =
      (outcome (evaluate j now clock) (run step s ops')).1 := by
  have entries : ∀ j, (run step s ops).get j = (run step s ops').get j :=
    fun j => view_interleaving children_local (same j)
  exact ⟨entries, keys_perm entries, fun j => evaluate_congr (entries j)⟩

def twin : ChildRun := { budgetRun (.ofNat 0) with id := ⟨0xc2⟩ }

def firstThenTwin : List Operation :=
  [.register (budgetRun (.ofNat 0)) usualCriteria, .register twin usualCriteria,
    .recordSpend ⟨0xc1⟩ (.ofNat 40), .kill ⟨0xc2⟩ "operator"]

def twinThenFirst : List Operation :=
  [.register twin usualCriteria, .kill ⟨0xc2⟩ "operator",
    .register (budgetRun (.ofNat 0)) usualCriteria, .recordSpend ⟨0xc1⟩ (.ofNat 40)]

theorem twin_interleavings :
    (run step Dict.empty firstThenTwin).get ⟨0xc1⟩ =
      (run step Dict.empty twinThenFirst).get ⟨0xc1⟩ := by
  have same : ∀ j, firstThenTwin.filter (concerns j) = twinThenFirst.filter (concerns j) := by
    intro j
    by_cases first : (⟨0xc1⟩ : Uuid) = j
    · subst first
      rfl
    · by_cases second : (⟨0xc2⟩ : Uuid) = j
      · subst second
        rfl
      · simp [firstThenTwin, twinThenFirst, concerns, budgetRun, twin, first, second]
  exact (interleaving_irrelevant Dict.empty firstThenTwin twinThenFirst same).1 ⟨0xc1⟩

end ChildSupervisor
