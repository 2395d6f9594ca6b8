import AgentEcosystem.Semantics.Runs

/-!
Tasks that share a state and a lock. A task may find before the lock that it
need not wait; behind the lock it runs up to one await, and from there to the
end, where it releases the lock. A schedule is any list of actions, so tasks
arrive, take the lock, go on and are cancelled in any order the lock allows.
-/
namespace GuardedSection
open Runs

/-- What a task does at its three stages. `ε` and `δ` are what it learns from
    outside when it enters and when it goes on. -/
structure Section (σ ρ β ο ε δ : Type) where
  /-- The result of a task that need not wait for the lock. -/
  early : σ → ρ → Option ο
  /-- Behind the lock: what the task holds while it awaits, or its result. -/
  enter : σ → ρ → ε → β ⊕ ο
  /-- From the await on: what becomes of the shared state, and the result. -/
  leave : σ → ρ → β → δ → σ × ο
  cancelled : ο

inductive Phase (β ο : Type) where
  | waiting
  | inside (held : β)
  | done (result : ο)

structure Task (ρ β ο : Type) where
  request : ρ
  phase : Phase β ο

structure State (σ ρ β ο : Type) where
  shared : σ
  holder : Option ℕ
  tasks : List (Task ρ β ο)

inductive Action (ρ ε δ : Type) where
  | arrive (request : ρ)
  | acquire (i : ℕ) (learned : ε)
  | resume (i : ℕ) (learned : δ)
  | cancel (i : ℕ)

variable {σ ρ β ο ε δ : Type}

def start (shared : σ) : State σ ρ β ο := ⟨shared, none, []⟩

def setPhase (s : State σ ρ β ο) (i : ℕ) (task : Task ρ β ο) (phase : Phase β ο) :
    List (Task ρ β ο) := s.tasks.set i { task with phase := phase }

def release (s : State σ ρ β ο) (i : ℕ) : Option ℕ := if s.holder = some i then none else s.holder

def step (S : Section σ ρ β ο ε δ) (s : State σ ρ β ο) : Action ρ ε δ → State σ ρ β ο
  | .arrive request =>
    let phase := match S.early s.shared request with
      | some result => .done result
      | none => .waiting
    { s with tasks := s.tasks ++ [⟨request, phase⟩] }
  | .acquire i learned =>
    match s.holder, s.tasks[i]? with
    | none, some ⟨request, .waiting⟩ =>
      match S.enter s.shared request learned with
      | .inl held =>
        { s with holder := some i, tasks := setPhase s i ⟨request, .waiting⟩ (.inside held) }
      | .inr result => { s with tasks := setPhase s i ⟨request, .waiting⟩ (.done result) }
    | _, _ => s
  | .resume i learned =>
    match s.tasks[i]? with
    | some ⟨request, .inside held⟩ =>
      let left := S.leave s.shared request held learned
      ⟨left.1, release s i, setPhase s i ⟨request, .inside held⟩ (.done left.2)⟩
    | _ => s
  | .cancel i =>
    match s.tasks[i]? with
    | some ⟨_, .done _⟩ => s
    | some task =>
      { s with holder := release s i, tasks := setPhase s i task (.done S.cancelled) }
    | none => s

def actor (s : State σ ρ β ο) : Action ρ ε δ → ℕ
  | .arrive _ => s.tasks.length
  | .acquire i _ => i
  | .resume i _ => i
  | .cancel i => i

def Moved (s t : State σ ρ β ο) (i : ℕ) (request : ρ) (phase : Phase β ο) : Prop :=
  t.tasks[i]? = some ⟨request, phase⟩ ∧ ∀ j, j ≠ i → t.tasks[j]? = s.tasks[j]?

theorem moved_setPhase {s : State σ ρ β ο} {i : ℕ} {task : Task ρ β ο}
    (here : s.tasks[i]? = some task) (phase : Phase β ο) (shared : σ) (holder : Option ℕ) :
    Moved s ⟨shared, holder, setPhase s i task phase⟩ i task.request phase := by
  obtain ⟨inside, _⟩ := List.getElem?_eq_some_iff.mp here
  constructor
  · exact List.getElem?_set_self inside
  · intro j other
    exact List.getElem?_set_ne (Ne.symm other)

/-- The ways a step goes, with all that changes on each. -/
inductive Goes (S : Section σ ρ β ο ε δ) (s t : State σ ρ β ο) : Action ρ ε δ → Prop where
  | stuck {a : Action ρ ε δ} (same : t = s) : Goes S s t a
  | early {request : ρ} {result : ο} (found : S.early s.shared request = some result)
      (shared : t.shared = s.shared) (holder : t.holder = s.holder)
      (moved : Moved s t s.tasks.length request (.done result)) : Goes S s t (.arrive request)
  | waits {request : ρ} (nothing : S.early s.shared request = none)
      (shared : t.shared = s.shared) (holder : t.holder = s.holder)
      (moved : Moved s t s.tasks.length request .waiting) : Goes S s t (.arrive request)
  | enters {i : ℕ} {learned : ε} {request : ρ} {held : β} (free : s.holder = none)
      (here : s.tasks[i]? = some ⟨request, .waiting⟩)
      (entered : S.enter s.shared request learned = .inl held)
      (shared : t.shared = s.shared) (holder : t.holder = some i)
      (moved : Moved s t i request (.inside held)) : Goes S s t (.acquire i learned)
  | ends {i : ℕ} {learned : ε} {request : ρ} {result : ο} (free : s.holder = none)
      (here : s.tasks[i]? = some ⟨request, .waiting⟩)
      (ended : S.enter s.shared request learned = .inr result)
      (shared : t.shared = s.shared) (holder : t.holder = s.holder)
      (moved : Moved s t i request (.done result)) : Goes S s t (.acquire i learned)
  | leaves {i : ℕ} {learned : δ} {request : ρ} {held : β}
      (here : s.tasks[i]? = some ⟨request, .inside held⟩)
      (shared : t.shared = (S.leave s.shared request held learned).1)
      (holder : t.holder = release s i)
      (moved : Moved s t i request (.done (S.leave s.shared request held learned).2)) :
      Goes S s t (.resume i learned)
  | cancels {i : ℕ} {request : ρ} {phase : Phase β ο}
      (here : s.tasks[i]? = some ⟨request, phase⟩) (open_ : ∀ result, phase ≠ .done result)
      (shared : t.shared = s.shared) (holder : t.holder = release s i)
      (moved : Moved s t i request (.done S.cancelled)) : Goes S s t (.cancel i)

theorem moved_append (s : State σ ρ β ο) (request : ρ) (phase : Phase β ο) :
    Moved s { s with tasks := s.tasks ++ [⟨request, phase⟩] } s.tasks.length request phase := by
  constructor
  · exact List.getElem?_concat_length
  · intro j other
    rcases Nat.lt_or_ge j s.tasks.length with inside | outside
    · exact List.getElem?_append_left inside
    · rw [List.getElem?_eq_none (by simp; omega), List.getElem?_eq_none outside]

theorem step_goes (S : Section σ ρ β ο ε δ) (s : State σ ρ β ο) (a : Action ρ ε δ) :
    Goes S s (step S s a) a := by
  cases a with
  | arrive request =>
    rcases found : S.early s.shared request with _ | result
    · have moved := moved_append s request (.waiting : Phase β ο)
      exact .waits found rfl rfl (by simpa only [step, found] using moved)
    · have moved := moved_append s request (.done result : Phase β ο)
      exact .early found rfl rfl (by simpa only [step, found] using moved)
  | acquire i learned =>
    rcases free : s.holder with _ | j
    · rcases here : s.tasks[i]? with _ | ⟨request, _ | held | result⟩
      · exact .stuck (by simp only [step, free, here])
      · rcases entered : S.enter s.shared request learned with held | result
        · have moved := moved_setPhase here (.inside held) s.shared (some i)
          have goes : step S s (.acquire i learned) =
              ⟨s.shared, some i, setPhase s i ⟨request, .waiting⟩ (.inside held)⟩ := by
            simp only [step, free, here, entered]
          rw [goes]
          exact .enters free here entered rfl rfl moved
        · have moved := moved_setPhase here (.done result) s.shared s.holder
          have goes : step S s (.acquire i learned) =
              ⟨s.shared, s.holder, setPhase s i ⟨request, .waiting⟩ (.done result)⟩ := by
            simp only [step, free, here, entered]
          rw [goes]
          exact .ends free here entered rfl rfl moved
      · exact .stuck (by simp only [step, free, here])
      · exact .stuck (by simp only [step, free, here])
    · exact .stuck (by simp only [step, free])
  | resume i learned =>
    rcases here : s.tasks[i]? with _ | ⟨request, _ | held | result⟩
    · exact .stuck (by simp only [step, here])
    · exact .stuck (by simp only [step, here])
    · have moved := moved_setPhase here (.done (S.leave s.shared request held learned).2)
        (S.leave s.shared request held learned).1 (release s i)
      have goes : step S s (.resume i learned) =
          ⟨(S.leave s.shared request held learned).1, release s i,
            setPhase s i ⟨request, .inside held⟩
              (.done (S.leave s.shared request held learned).2)⟩ := by
        simp only [step, here]
      rw [goes]
      exact .leaves here rfl rfl moved
    · exact .stuck (by simp only [step, here])
  | cancel i =>
    rcases here : s.tasks[i]? with _ | ⟨request, phase⟩
    · exact .stuck (by simp only [step, here])
    · by_cases done : ∃ result, phase = .done result
      · obtain ⟨result, rfl⟩ := done
        exact .stuck (by simp only [step, here])
      · have moved := moved_setPhase here (.done S.cancelled) s.shared (release s i)
        have goes : step S s (.cancel i) =
            ⟨s.shared, release s i, setPhase s i ⟨request, phase⟩ (.done S.cancelled)⟩ := by
          cases phase with
          | done result => exact absurd ⟨result, rfl⟩ done
          | waiting => simp only [step, here]
          | inside held => simp only [step, here]
        rw [goes]
        exact .cancels here (fun result eq => done ⟨result, eq⟩) rfl rfl moved

section Steps
variable {S : Section σ ρ β ο ε δ} {s t : State σ ρ β ο} {a : Action ρ ε δ} {i j : ℕ}
  {request request' : ρ}

theorem moved_cases {phase phase' : Phase β ο} (moved : Moved s t i request phase)
    (here : t.tasks[j]? = some ⟨request', phase'⟩) :
    (j = i ∧ request' = request ∧ phase' = phase) ∨
      (j ≠ i ∧ s.tasks[j]? = some ⟨request', phase'⟩) := by
  by_cases same : j = i
  · rw [same, moved.1] at here
    cases here
    exact .inl ⟨same, rfl, rfl⟩
  · rw [moved.2 j same] at here
    exact .inr ⟨same, here⟩

theorem moved_other {phase phase' : Phase β ο} (moved : Moved s t i request phase)
    (here : t.tasks[j]? = some ⟨request', phase'⟩) (differ : phase' ≠ phase) :
    s.tasks[j]? = some ⟨request', phase'⟩ := by
  rcases moved_cases moved here with ⟨_, _, same⟩ | ⟨_, old⟩
  · exact absurd same differ
  · exact old

theorem shared_changes (goes : Goes S s t a) (changed : t.shared ≠ s.shared) :
    ∃ i learned request held, a = .resume i learned ∧
      s.tasks[i]? = some ⟨request, .inside held⟩ ∧
      t.shared = (S.leave s.shared request held learned).1 ∧
      t.tasks[i]? = some ⟨request, .done (S.leave s.shared request held learned).2⟩ := by
  cases goes with
  | stuck same => exact absurd (congrArg State.shared same) changed
  | early _ shared _ _ => exact absurd shared changed
  | waits _ shared _ _ => exact absurd shared changed
  | enters _ _ _ shared _ _ => exact absurd shared changed
  | ends _ _ _ shared _ _ => exact absurd shared changed
  | leaves here shared _ moved => exact ⟨_, _, _, _, rfl, here, shared, moved.1⟩
  | cancels _ _ shared _ _ => exact absurd shared changed

/- The task that moves was not done, and a new one is a task no list has yet. -/
theorem moved_keeps {phase : Phase β ο} {result : ο} (moved : Moved s t i request phase)
    (fresh : ∀ other, s.tasks[i]? ≠ some ⟨other, .done result⟩)
    (here : s.tasks[j]? = some ⟨request', .done result⟩) :
    t.tasks[j]? = some ⟨request', .done result⟩ := by
  by_cases same : j = i
  · rw [same] at here
    exact absurd here (fresh request')
  · rw [moved.2 j same]
    exact here

theorem done_stays {result : ο} (goes : Goes S s t a)
    (here : s.tasks[j]? = some ⟨request, .done result⟩) :
    t.tasks[j]? = some ⟨request, .done result⟩ := by
  have new : ∀ other : ρ, s.tasks[s.tasks.length]? ≠ some ⟨other, .done result⟩ := by
    intro other eq
    rw [List.getElem?_eq_none (Nat.le_refl _)] at eq
    cases eq
  have busy : ∀ (i : ℕ) (request : ρ) (phase : Phase β ο), s.tasks[i]? = some ⟨request, phase⟩ →
      (∀ result, phase ≠ .done result) →
      ∀ other : ρ, s.tasks[i]? ≠ some ⟨other, .done result⟩ := by
    intro i request phase at_ open_ other eq
    rw [at_] at eq
    cases eq
    exact open_ result rfl
  cases goes with
  | stuck same =>
    rw [same]
    exact here
  | early _ _ _ moved => exact moved_keeps moved new here
  | waits _ _ _ moved => exact moved_keeps moved new here
  | enters _ at_ _ _ _ moved => exact moved_keeps moved (busy _ _ _ at_ (by simp)) here
  | ends _ at_ _ _ _ moved => exact moved_keeps moved (busy _ _ _ at_ (by simp)) here
  | leaves at_ _ _ moved => exact moved_keeps moved (busy _ _ _ at_ (by simp)) here
  | cancels at_ open_ _ _ moved => exact moved_keeps moved (busy _ _ _ at_ open_) here

theorem done_run {result : ο} (here : s.tasks[j]? = some ⟨request, .done result⟩)
    (as : List (Action ρ ε δ)) : (run (step S) s as).tasks[j]? = some ⟨request, .done result⟩ :=
  run_invariant (step S) (fun s => s.tasks[j]? = some ⟨request, .done result⟩)
    (fun s a old => done_stays (step_goes S s a) old) here as

theorem entered_of_inside {held : β} (goes : Goes S s t a)
    (now : t.tasks[i]? = some ⟨request, .inside held⟩)
    (before : s.tasks[i]? ≠ some ⟨request, .inside held⟩) :
    ∃ learned, a = .acquire i learned ∧ s.holder = none ∧
      s.tasks[i]? = some ⟨request, .waiting⟩ ∧
      S.enter s.shared request learned = .inl held := by
  cases goes with
  | stuck same =>
    rw [same] at now
    exact absurd now before
  | early _ _ _ moved => exact absurd (moved_other moved now nofun) before
  | waits _ _ _ moved => exact absurd (moved_other moved now nofun) before
  | enters free here entered _ _ moved =>
    rcases moved_cases moved now with ⟨rfl, rfl, phase⟩ | ⟨_, old⟩
    · cases phase
      exact ⟨_, rfl, free, here, entered⟩
    · exact absurd old before
  | ends _ _ _ _ _ moved => exact absurd (moved_other moved now nofun) before
  | leaves _ _ _ moved => exact absurd (moved_other moved now nofun) before
  | cancels _ _ _ _ moved => exact absurd (moved_other moved now nofun) before

inductive Yields (S : Section σ ρ β ο ε δ) (s : State σ ρ β ο) (i : ℕ) (request : ρ) :
    Action ρ ε δ → ο → Prop where
  | early {result : ο} (found : S.early s.shared request = some result) :
      Yields S s i request (.arrive request) result
  | ended {learned : ε} {result : ο} (ended : S.enter s.shared request learned = .inr result) :
      Yields S s i request (.acquire i learned) result
  | left {learned : δ} {held : β} (here : s.tasks[i]? = some ⟨request, .inside held⟩) :
      Yields S s i request (.resume i learned) (S.leave s.shared request held learned).2
  | cancelled : Yields S s i request (.cancel i) S.cancelled

theorem yields_of_done {result : ο} (goes : Goes S s t a)
    (now : t.tasks[i]? = some ⟨request, .done result⟩)
    (before : s.tasks[i]? ≠ some ⟨request, .done result⟩) : Yields S s i request a result := by
  cases goes with
  | stuck same =>
    rw [same] at now
    exact absurd now before
  | early found _ _ moved =>
    rcases moved_cases moved now with ⟨_, rfl, phase⟩ | ⟨_, old⟩
    · cases phase
      exact .early found
    · exact absurd old before
  | waits _ _ _ moved => exact absurd (moved_other moved now nofun) before
  | enters _ _ _ _ _ moved => exact absurd (moved_other moved now nofun) before
  | ends _ _ ended _ _ moved =>
    rcases moved_cases moved now with ⟨rfl, rfl, phase⟩ | ⟨_, old⟩
    · cases phase
      exact .ended ended
    · exact absurd old before
  | leaves here _ _ moved =>
    rcases moved_cases moved now with ⟨rfl, rfl, phase⟩ | ⟨_, old⟩
    · cases phase
      exact .left here
    · exact absurd old before
  | cancels _ _ _ _ moved =>
    rcases moved_cases moved now with ⟨rfl, rfl, phase⟩ | ⟨_, old⟩
    · cases phase
      exact .cancelled
    · exact absurd old before

end Steps

/-- A task that awaits behind the lock is its holder, and what it found when it
    entered still holds of the shared state. -/
def Guarded (G : σ → ρ → β → Prop) (s : State σ ρ β ο) : Prop :=
  ∀ i request held, s.tasks[i]? = some ⟨request, .inside held⟩ →
    s.holder = some i ∧ G s.shared request held

theorem one_inside {G : σ → ρ → β → Prop} {s : State σ ρ β ο} (guarded : Guarded G s) {i j : ℕ}
    {request request' : ρ} {held held' : β} (first : s.tasks[i]? = some ⟨request, .inside held⟩)
    (second : s.tasks[j]? = some ⟨request', .inside held'⟩) : i = j := by
  have mine := (guarded i request held first).1
  rw [(guarded j request' held' second).1] at mine
  exact (Option.some.inj mine).symm

section Schedules
variable (S : Section σ ρ β ο ε δ) {G : σ → ρ → β → Prop}
  (establishes : ∀ shared request learned held,
    S.enter shared request learned = .inl held → G shared request held)
include establishes

theorem guarded_step (s : State σ ρ β ο) (a : Action ρ ε δ) (h : Guarded G s) :
    Guarded G (step S s a) := by
  intro j request' held' now
  cases step_goes S s a with
  | stuck same =>
    rw [same] at now ⊢
    exact h j request' held' now
  | early _ shared holder moved =>
    rw [shared, holder]
    exact h j request' held' (moved_other moved now nofun)
  | waits _ shared holder moved =>
    rw [shared, holder]
    exact h j request' held' (moved_other moved now nofun)
  | enters free _ entered shared holder moved =>
    rcases moved_cases moved now with ⟨rfl, rfl, phase⟩ | ⟨_, old⟩
    · cases phase
      rw [shared]
      exact ⟨holder, establishes _ _ _ _ entered⟩
    · -- nobody was inside while the lock was free
      rw [(h j request' held' old).1] at free
      cases free
  | ends _ _ _ shared holder moved =>
    rw [shared, holder]
    exact h j request' held' (moved_other moved now nofun)
  | leaves here _ _ moved =>
    rcases moved_cases moved now with ⟨_, _, phase⟩ | ⟨other, old⟩
    · cases phase
    · -- two tasks cannot both hold the lock
      exact absurd (one_inside h old here) other
  | cancels _ _ shared holder moved =>
    rcases moved_cases moved now with ⟨_, _, phase⟩ | ⟨other, old⟩
    · cases phase
    · obtain ⟨mine, found⟩ := h j request' held' old
      rw [shared, holder, release, if_neg]
      · exact ⟨mine, found⟩
      · rw [mine]
        exact fun same => other (Option.some.inj same)

/-- Every schedule of every tasks keeps the lock exclusive and what was found
    behind it true. -/
theorem guarded_run (shared : σ) (as : List (Action ρ ε δ)) :
    Guarded G (run (step S) (start shared) as) := by
  apply run_invariant (step S) (Guarded G) (guarded_step S establishes)
  intro i request held here
  cases here

end Schedules

end GuardedSection
