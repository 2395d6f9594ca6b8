import AgentEcosystem.Ethics.SingleFlight
import AgentEcosystem.Semantics.LockProgress

/-!
Reviews come to an end. Whatever the provider answers and whoever is cancelled, the
lock goes back, so some unfinished review can always go on, and none of them takes
more than two moves.
-/
namespace EthicsService
open AgentSchemas GuardedSection Runs

def Unfinished (s : Reviews) (i : ℕ) : Prop :=
  ∃ req phase, s.tasks[i]? = some ⟨req, phase⟩ ∧ ∀ result, phase ≠ .done result

theorem ahead_of_unfinished {s : Reviews} {i : ℕ} (unfinished : Unfinished s i) :
    ∃ req phase, s.tasks[i]? = some ⟨req, phase⟩ ∧ 0 < phase.ahead := by
  obtain ⟨req, phase, here, open_⟩ := unfinished
  refine ⟨req, phase, here, ?_⟩
  cases phase with
  | waiting => exact Nat.two_pos
  | inside held => exact Nat.one_pos
  | done result => exact absurd rfl (open_ result)

/-- No schedule of reviews deadlocks or goes on forever: with reviews unfinished, one
    can take the lock or hear from the provider, and a schedule in which nothing is
    done in vain has at most two moves for each review that arrived; when none is
    left, every review has its result. -/
theorem reviews_finish (I : Interpreter) (as : List ReviewAction) :
    ((∃ i, Unfinished (serve I as) i) → ∃ j,
      (∀ reads, Moves (serve I as) (.acquire j reads : ReviewAction)) ∨
        ∀ reply, Moves (serve I as) (.resume j reply : ReviewAction)) ∧
    (Meets (step (review I)) Acts newService as →
      (as.filter fun a => !isArrival a).length + pending (serve I as) ≤
        2 * (as.filter isArrival).length) ∧
    (pending (serve I as) = 0 → ∀ i, ¬ Unfinished (serve I as) i) := by
  have holder : HolderInside (serve I as) := holderInside_run (review I) _ as
  refine ⟨?_, ?_, ?_⟩
  · rintro ⟨i, unfinished⟩
    obtain ⟨req, phase, here, open_⟩ := ahead_of_unfinished unfinished
    exact some_move holder here open_
  · intro acts
    have bounded := moves_bounded acts
    have none : pending newService = 0 := rfl
    rw [none, Nat.zero_add] at bounded
    exact bounded
  · intro none i unfinished
    obtain ⟨req, phase, here, open_⟩ := ahead_of_unfinished unfinished
    have counted : phase.ahead ∈ (serve I as).tasks.map fun task => task.phase.ahead :=
      List.mem_map_of_mem (List.mem_of_getElem? here)
    have zero := List.sum_eq_zero_iff_forall_eq_nat.mp none phase.ahead counted
    omega

end EthicsService
