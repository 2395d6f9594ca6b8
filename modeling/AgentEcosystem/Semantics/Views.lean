import AgentEcosystem.Semantics.Runs

/-!
Systems made of parts. A view shows one part of the state; an action that does not
concern the part leaves its view alone. What a part looks like after a run is then
decided by the actions that concern it, however the others are interleaved.
-/
namespace Runs
variable {σ α ι β : Type*}

structure Local (step : σ → α → σ) (view : σ → ι → β) (concerns : ι → α → Bool)
    (move : ι → β → α → β) : Prop where
  here : ∀ s a i, concerns i a = true → view (step s a) i = move i (view s i) a
  elsewhere : ∀ s a i, concerns i a = false → view (step s a) i = view s i

section Rules
variable {step : σ → α → σ} {view : σ → ι → β} {concerns : ι → α → Bool} {move : ι → β → α → β}
  (h : Local step view concerns move)
include h

theorem view_run (s : σ) (as : List α) (i : ι) :
    view (run step s as) i = run (move i) (view s i) (as.filter (concerns i)) := by
  induction as generalizing s with
  | nil => rfl
  | cons a as ih =>
    rw [run_cons, ih, List.filter_cons]
    cases touched : concerns i a with
    | true =>
      rw [if_pos rfl, run_cons, h.here s a i touched]
    | false =>
      rw [if_neg Bool.false_ne_true, h.elsewhere s a i touched]

theorem view_interleaving {s : σ} {as bs : List α} {i : ι}
    (same : as.filter (concerns i) = bs.filter (concerns i)) :
    view (run step s as) i = view (run step s bs) i := by
  rw [view_run h, view_run h, same]

end Rules

end Runs
