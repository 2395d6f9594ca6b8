import Mathlib.Algebra.Group.Defs
import Mathlib.Algebra.Group.Basic

/-!
Runs of a system that takes one step after another. A step is total: a call
that raises, or an action that is not enabled, still leads to a state.
`Meets` states a condition on every step of a run, each judged in the state in
which the step is taken.
-/
namespace Runs
variable {σ α : Type*} (step : σ → α → σ)

def run (s : σ) (as : List α) : σ := as.foldl step s

@[simp] theorem run_nil (s : σ) : run step s [] = s := rfl

@[simp] theorem run_cons (s : σ) (a : α) (as : List α) :
    run step s (a :: as) = run step (step s a) as := rfl

theorem run_append (s : σ) (as bs : List α) :
    run step s (as ++ bs) = run step (run step s as) bs := List.foldl_append

def Reachable (init s : σ) : Prop := ∃ as, s = run step init as

theorem run_invariant (Inv : σ → Prop) (keep : ∀ s a, Inv s → Inv (step s a))
    {s : σ} (init : Inv s) (as : List α) : Inv (run step s as) := by
  induction as generalizing s with
  | nil => exact init
  | cons a as ih => exact ih (keep s a init)

/-- Every step of the run satisfies `ok` in the state it starts from. -/
def Meets (ok : σ → α → Prop) : σ → List α → Prop
  | _, [] => True
  | s, a :: as => ok s a ∧ Meets ok (step s a) as

theorem meets_append {ok : σ → α → Prop} {s : σ} (as bs : List α) :
    Meets step ok s (as ++ bs) ↔ Meets step ok s as ∧ Meets step ok (run step s as) bs := by
  induction as generalizing s with
  | nil => simp [Meets]
  | cons a as ih => simp only [List.cons_append, Meets, run_cons, ih, and_assoc]

theorem meets_iff_each {ok : σ → α → Prop} {s : σ} {as : List α} :
    Meets step ok s as ↔
      ∀ before a later, as = before ++ a :: later → ok (run step s before) a := by
  constructor
  · rintro meets before a later rfl
    exact ((meets_append step before _).mp meets).2.1
  · intro each
    induction as generalizing s with
    | nil => trivial
    | cons a as ih =>
      constructor
      · exact each [] a as rfl
      · apply ih
        rintro before b later rfl
        exact each (a :: before) b later rfl

theorem meets_mono {ok ok' : σ → α → Prop} (le : ∀ s a, ok s a → ok' s a) {s : σ} {as : List α}
    (h : Meets step ok s as) : Meets step ok' s as := by
  induction as generalizing s with
  | nil => trivial
  | cons a as ih => exact ⟨le s a h.1, ih h.2⟩

theorem meets_of_forall {ok : σ → α → Prop} {s : σ} {as : List α}
    (h : ∀ a ∈ as, ∀ t, ok t a) : Meets step ok s as := by
  induction as generalizing s with
  | nil => trivial
  | cons a as ih => exact ⟨h a (by simp) s, ih fun b hb => h b (by simp [hb])⟩

theorem meets_iff_forall {p : α → Prop} {s : σ} {as : List α} :
    Meets step (fun _ a => p a) s as ↔ ∀ a ∈ as, p a := by
  induction as generalizing s with
  | nil => simp [Meets]
  | cons a as ih => simp [Meets, ih]

theorem meets_both {ok ok' : σ → α → Prop} {s : σ} {as : List α} (h : Meets step ok s as)
    (h' : Meets step ok' s as) : Meets step (fun s a => ok s a ∧ ok' s a) s as := by
  induction as generalizing s with
  | nil => trivial
  | cons a as ih => exact ⟨⟨h.1, h'.1⟩, ih h.2 h'.2⟩

theorem meets_and {ok : σ → α → Prop} {p : α → Prop} {s : σ} {as : List α}
    (h : Meets step ok s as) (all : ∀ a ∈ as, p a) :
    Meets step (fun s a => ok s a ∧ p a) s as :=
  meets_both step h ((meets_iff_forall step).mpr all)

theorem meets_invariant {ok : σ → α → Prop} (Inv : σ → Prop)
    (keep : ∀ s a, ok s a → Inv s → Inv (step s a)) {s : σ} (init : Inv s) {as : List α}
    (h : Meets step ok s as) : Inv (run step s as) := by
  induction as generalizing s with
  | nil => exact init
  | cons a as ih => exact ih (keep s a h.1 init) h.2

theorem meets_of_invariant {ok good : σ → α → Prop} (Inv : σ → Prop)
    (keep : ∀ s a, ok s a → Inv s → Inv (step s a)) (isGood : ∀ s a, ok s a → Inv s → good s a)
    {s : σ} (init : Inv s) {as : List α} (h : Meets step ok s as) : Meets step good s as := by
  induction as generalizing s with
  | nil => trivial
  | cons a as ih => exact ⟨isGood s a h.1 init, ih (keep s a h.1 init) h.2⟩

/-- `Inv` holds in every state the run passes, its first and last included. -/
def Throughout (Inv : σ → Prop) (s : σ) (as : List α) : Prop :=
  ∀ before, before <+: as → Inv (run step s before)

theorem throughout_of_meets {ok : σ → α → Prop} (Inv : σ → Prop)
    (keep : ∀ s a, ok s a → Inv s → Inv (step s a)) {s : σ} (init : Inv s) {as : List α}
    (h : Meets step ok s as) : Throughout step Inv s as := by
  rintro before ⟨rest, rfl⟩
  exact meets_invariant step Inv keep init ((meets_append step before rest).mp h).1

theorem throughout_cons {Inv : σ → Prop} {s : σ} {a : α} {as : List α} :
    Throughout step Inv s (a :: as) ↔ Inv s ∧ Throughout step Inv (step s a) as := by
  constructor
  · intro h
    constructor
    · exact h [] (List.nil_prefix)
    · intro before isPrefix
      exact h (a :: before) (List.cons_prefix_cons.mpr ⟨rfl, isPrefix⟩)
  · rintro ⟨here, later⟩ before isPrefix
    cases before with
    | nil => exact here
    | cons b before =>
      obtain ⟨rfl, tail⟩ := List.cons_prefix_cons.mp isPrefix
      exact later before tail

/- When each step of a guarded run decides whether the invariant survives it, so does the run. -/
theorem throughout_iff_meets_under {guard ok : σ → α → Prop} (Inv : σ → Prop)
    (decides : ∀ s a, guard s a → Inv s → (Inv (step s a) ↔ ok s a)) {s : σ} (init : Inv s)
    {as : List α} (guarded : Meets step guard s as) :
    Throughout step Inv s as ↔ Meets step ok s as := by
  induction as generalizing s with
  | nil =>
    constructor
    · intro _
      trivial
    · intro _ before isPrefix
      rw [List.prefix_nil.mp isPrefix]
      exact init
  | cons a as ih =>
    obtain ⟨here, rest⟩ := guarded
    rw [throughout_cons]
    constructor
    · rintro ⟨_, later⟩
      have next := later [] List.nil_prefix
      exact ⟨(decides s a here init).mp next, (ih next rest).mp later⟩
    · rintro ⟨fine, later⟩
      have next := (decides s a here init).mpr fine
      exact ⟨init, (ih next rest).mpr later⟩

/-- When each step decides whether the invariant survives it, so does the run. -/
theorem throughout_iff_meets {ok : σ → α → Prop} (Inv : σ → Prop)
    (decides : ∀ s a, Inv s → (Inv (step s a) ↔ ok s a)) {s : σ} (init : Inv s) (as : List α) :
    Throughout step Inv s as ↔ Meets step ok s as :=
  throughout_iff_meets_under step Inv (fun s a (_ : True) => decides s a) init
    (meets_of_forall step fun _ _ _ => trivial)

/-- What holds of an `i` somewhere on the run holds of it from there on. -/
def Lasting {ι : Type*} (P : σ → ι → Prop) (s : σ) (as : List α) : Prop :=
  ∀ before later, before ++ later <+: as → ∀ i, P (run step s before) i →
    P (run step s (before ++ later)) i

/- A run keeps what each of its steps keeps, and if one step loses it, so does the run. -/
theorem lasting_iff_meets {ι : Type*} {ok : σ → α → Prop} {P : σ → ι → Prop}
    (decides : ∀ s a, (∀ i, P s i → P (step s a) i) ↔ ok s a) (s : σ) (as : List α) :
    Lasting step P s as ↔ Meets step ok s as := by
  constructor
  · intro lasting
    induction as generalizing s with
    | nil => trivial
    | cons a as ih =>
      constructor
      · apply (decides s a).mp
        exact lasting [] [a] (List.cons_prefix_cons.mpr ⟨rfl, List.nil_prefix⟩)
      · apply ih
        intro before later isPrefix
        exact lasting (a :: before) later (List.cons_prefix_cons.mpr ⟨rfl, isPrefix⟩)
  · rintro meets before later ⟨rest, rfl⟩ i here
    rw [meets_append, meets_append] at meets
    rw [run_append]
    exact meets_invariant step (P · i) (fun s a fine => (decides s a).mpr fine i) here meets.1.2

def total {M : Type*} [AddMonoid M] (gain : σ → α → M) : σ → List α → M
  | _, [] => 0
  | s, a :: as => gain s a + total gain (step s a) as

/- A quantity that a step moves by its gain exactly when `ok` holds of the step
   moves by the total at every point of a run exactly when `ok` holds throughout. -/
theorem total_iff_meets {M : Type*} [AddCommGroup M] {ok : σ → α → Prop} (measure : σ → M)
    (gain : σ → α → M) (move : ∀ s a, measure (step s a) = measure s + gain s a ↔ ok s a)
    (s : σ) (as : List α) :
    (∀ before, before <+: as →
      measure (run step s before) = measure s + total step gain s before) ↔
      Meets step ok s as := by
  induction as generalizing s with
  | nil =>
    constructor
    · intro _
      trivial
    · intro _ before isPrefix
      rw [List.prefix_nil.mp isPrefix, run_nil, total, add_zero]
  | cons a as ih =>
    constructor
    · intro h
      have first := h [a] (List.cons_prefix_cons.mpr ⟨rfl, List.nil_prefix⟩)
      rw [run_cons, run_nil, total, total, add_zero] at first
      refine ⟨(move s a).mp first, (ih (step s a)).mp ?_⟩
      intro before isPrefix
      have later := h (a :: before) (List.cons_prefix_cons.mpr ⟨rfl, isPrefix⟩)
      rw [run_cons, total, ← add_assoc, ← first] at later
      exact later
    · rintro ⟨now, rest⟩ before isPrefix
      cases before with
      | nil => rw [run_nil, total, add_zero]
      | cons b before =>
        obtain ⟨rfl, tail⟩ := List.cons_prefix_cons.mp isPrefix
        rw [run_cons, total, (ih _).mpr rest before tail, (move s b).mpr now, add_assoc]

end Runs
