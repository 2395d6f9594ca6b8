import AgentEcosystem.Semantics.GuardedSection
import Mathlib

/-!
Progress of tasks that share a lock. The holder is always a task behind the lock, so
as long as a task is not done some task can move, and each move brings the tasks
closer to their ends: with nobody new, every schedule of moves ends with all done.
-/
namespace GuardedSection
open Runs
variable {σ ρ β ο ε δ : Type}

def Phase.ahead : Phase β ο → ℕ
  | .waiting => 2
  | .inside _ => 1
  | .done _ => 0

def pending (s : State σ ρ β ο) : ℕ := (s.tasks.map fun task => task.phase.ahead).sum

/-- The lock was not left to a task that does not use it. -/
def HolderInside (s : State σ ρ β ο) : Prop :=
  ∀ i, s.holder = some i → ∃ request held, s.tasks[i]? = some ⟨request, .inside held⟩

def Moves (s : State σ ρ β ο) : Action ρ ε δ → Prop
  | .arrive _ => False
  | .acquire i _ => s.holder = none ∧ ∃ request, s.tasks[i]? = some ⟨request, .waiting⟩
  | .resume i _ => ∃ request held, s.tasks[i]? = some ⟨request, .inside held⟩
  | .cancel i => ∃ request phase, s.tasks[i]? = some ⟨request, phase⟩ ∧ 0 < phase.ahead

def Acts (s : State σ ρ β ο) (a : Action ρ ε δ) : Prop :=
  (∃ request, a = .arrive request) ∨ Moves s a

def isArrival : Action ρ ε δ → Bool
  | .arrive _ => true
  | _ => false

section Holder
variable {S : Section σ ρ β ο ε δ} {s : State σ ρ β ο}

theorem inside_stays {t : State σ ρ β ο} {i j : ℕ} {request request' : ρ} {phase : Phase β ο}
    {held : β} (moved : Moved s t i request phase) (other : j ≠ i)
    (here : s.tasks[j]? = some ⟨request', .inside held⟩) :
    t.tasks[j]? = some ⟨request', .inside held⟩ := by
  rw [moved.2 j other]
  exact here

theorem holderInside_step (a : Action ρ ε δ) (h : HolderInside s) : HolderInside (step S s a) := by
  have new : ∀ {j : ℕ} {request' : ρ} {held : β}, s.tasks[j]? = some ⟨request', .inside held⟩ →
      j ≠ s.tasks.length := by
    rintro j request' held here rfl
    rw [List.getElem?_eq_none (Nat.le_refl _)] at here
    cases here
  -- a task that released the lock, or never had it, is not the holder
  have released : ∀ {i j : ℕ}, release s i = some j → s.holder = some j ∧ j ≠ i := by
    intro i j holds
    unfold release at holds
    split at holds
    · cases holds
    · next other => exact ⟨holds, fun same => other (same ▸ holds)⟩
  intro j holds
  cases step_goes S s a with
  | stuck same =>
    rw [same] at holds ⊢
    exact h j holds
  | early _ _ holder moved =>
    obtain ⟨request', held, here⟩ := h j (holder ▸ holds)
    exact ⟨request', held, inside_stays moved (new here) here⟩
  | waits _ _ holder moved =>
    obtain ⟨request', held, here⟩ := h j (holder ▸ holds)
    exact ⟨request', held, inside_stays moved (new here) here⟩
  | enters free _ _ _ holder moved =>
    rw [holder] at holds
    cases holds
    exact ⟨_, _, moved.1⟩
  | ends free _ _ _ holder _ =>
    rw [holder, free] at holds
    cases holds
  | leaves _ _ holder moved =>
    obtain ⟨mine, other⟩ := released (holder ▸ holds)
    obtain ⟨request', held, here⟩ := h j mine
    exact ⟨request', held, inside_stays moved other here⟩
  | cancels _ _ _ holder moved =>
    obtain ⟨mine, other⟩ := released (holder ▸ holds)
    obtain ⟨request', held, here⟩ := h j mine
    exact ⟨request', held, inside_stays moved other here⟩

theorem holderInside_run (S : Section σ ρ β ο ε δ) (shared : σ) (as : List (Action ρ ε δ)) :
    HolderInside (run (step S) (start shared) as) := by
  apply run_invariant (step S) HolderInside fun _ a h => holderInside_step a h
  intro i holds
  cases holds

theorem some_move (h : HolderInside s) {i : ℕ} {request : ρ} {phase : Phase β ο}
    (here : s.tasks[i]? = some ⟨request, phase⟩) (open_ : 0 < phase.ahead) :
    ∃ j, (∀ learned : ε, Moves s (.acquire j learned : Action ρ ε δ)) ∨
      ∀ learned : δ, Moves s (.resume j learned : Action ρ ε δ) := by
  rcases free : s.holder with _ | j
  · cases phase with
    | waiting => exact ⟨i, .inl fun _ => ⟨free, request, here⟩⟩
    | inside held => exact ⟨i, .inr fun _ => ⟨request, held, here⟩⟩
    | done result => exact absurd open_ (Nat.lt_irrefl 0)
  · obtain ⟨request', held, inside⟩ := h j free
    exact ⟨j, .inr fun _ => ⟨request', held, inside⟩⟩

end Holder

theorem sum_set {α : Type} (f : α → ℕ) {xs : List α} {i : ℕ} {x : α} (here : xs[i]? = some x)
    (y : α) : ((xs.set i y).map f).sum + f x = (xs.map f).sum + f y := by
  induction xs generalizing i with
  | nil => cases here
  | cons z xs ih =>
    cases i with
    | zero =>
      cases here
      simp only [List.set_cons_zero, List.map_cons, List.sum_cons]
      omega
    | succ i =>
      have later := ih here
      simp only [List.set_cons_succ, List.map_cons, List.sum_cons]
      omega

theorem pending_setPhase {s : State σ ρ β ο} {i : ℕ} {task : Task ρ β ο}
    (here : s.tasks[i]? = some task) (phase : Phase β ο) (shared : σ) (holder : Option ℕ) :
    pending ⟨shared, holder, setPhase s i task phase⟩ + task.phase.ahead =
      pending s + phase.ahead :=
  sum_set (fun task : Task ρ β ο => task.phase.ahead) here _

section Moving
variable {S : Section σ ρ β ο ε δ} {s : State σ ρ β ο} {a : Action ρ ε δ}

theorem pending_moves (moves : Moves s a) : pending (step S s a) < pending s := by
  cases a with
  | arrive request => exact absurd moves id
  | acquire i learned =>
    obtain ⟨free, request, here⟩ := moves
    simp only [step, free, here]
    cases S.enter s.shared request learned with
    | inl held =>
      have less := pending_setPhase here (.inside held) s.shared (some i)
      simp only [Phase.ahead] at less ⊢
      omega
    | inr result =>
      have less := pending_setPhase here (.done result) s.shared s.holder
      rw [free] at less
      simp only [Phase.ahead] at less ⊢
      omega
  | resume i learned =>
    obtain ⟨request, held, here⟩ := moves
    simp only [step, here]
    have less := pending_setPhase here (.done (S.leave s.shared request held learned).2)
      (S.leave s.shared request held learned).1 (release s i)
    simp only [Phase.ahead] at less ⊢
    omega
  | cancel i =>
    obtain ⟨request, phase, here, open_⟩ := moves
    have less := pending_setPhase here (.done S.cancelled) s.shared (release s i)
    have goes : step S s (.cancel i) =
        ⟨s.shared, release s i, setPhase s i ⟨request, phase⟩ (.done S.cancelled)⟩ := by
      cases phase with
      | done result => exact absurd open_ (Nat.lt_irrefl 0)
      | waiting => simp only [step, here]
      | inside held => simp only [step, here]
    rw [goes]
    have ended : (Phase.done S.cancelled : Phase β ο).ahead = 0 := rfl
    rw [ended] at less
    simp only at less
    omega

theorem pending_arrive (request : ρ) :
    pending (step S s (.arrive request : Action ρ ε δ)) ≤ pending s + 2 := by
  simp only [step, pending, List.map_append, List.sum_append, List.map_cons, List.map_nil,
    List.sum_cons, List.sum_nil]
  cases S.early s.shared request with
  | some result => exact Nat.le_add_right _ _
  | none => exact Nat.le_refl _

/-- The moves of a schedule are paid for by those ahead at its start and two for each
    task that arrives. -/
theorem moves_bounded {as : List (Action ρ ε δ)} (acts : Meets (step S) Acts s as) :
    (as.filter fun a => !isArrival a).length + pending (run (step S) s as) ≤
      pending s + 2 * (as.filter isArrival).length := by
  induction as generalizing s with
  | nil => simp
  | cons a as ih =>
    obtain ⟨act, later⟩ := acts
    have rest := ih later
    rw [run_cons]
    rcases act with ⟨request, rfl⟩ | moves
    · have more := pending_arrive (S := S) (s := s) (ε := ε) (δ := δ) request
      have arrival : isArrival (.arrive request : Action ρ ε δ) = true := rfl
      simp only [List.filter_cons, arrival, Bool.not_true, Bool.false_eq_true, if_false, if_true,
        List.length_cons]
      omega
    · have less := pending_moves (S := S) moves
      have notArrival : isArrival a = false := by
        cases a with
        | arrive request => exact absurd moves id
        | _ => rfl
      simp only [List.filter_cons, notArrival, Bool.not_false, Bool.false_eq_true, if_false,
        if_true, List.length_cons]
      omega

end Moving

end GuardedSection
