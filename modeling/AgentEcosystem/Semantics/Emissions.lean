import AgentEcosystem.Semantics.Runs
import Mathlib

/-!
What the steps of a run give off. If each step does to a part of the state what the
actions it emits do to that part alone, then the run does what all its emissions do;
and what is held, used and granted along a run adds up as it does in one step.
-/
namespace Runs
variable {σ τ α β γ : Type*} (step : σ → α → σ)

def emitted (emit : σ → α → List β) : σ → List α → List β
  | _, [] => []
  | s, a :: as => emit s a ++ emitted emit (step s a) as

section Refinement
variable {step : σ → α → σ} {emit : σ → α → List β}

theorem view_run_emitted {part : σ → τ} {move : τ → β → τ}
    (refines : ∀ s a, part (step s a) = run move (part s) (emit s a)) (s : σ) (as : List α) :
    part (run step s as) = run move (part s) (emitted step emit s as) := by
  induction as generalizing s with
  | nil => rfl
  | cons a as ih => rw [run_cons, ih, refines, emitted, run_append]

theorem mem_emitted {x : β} {s : σ} {as : List α} : x ∈ emitted step emit s as ↔
    ∃ before a later, as = before ++ a :: later ∧ x ∈ emit (run step s before) a := by
  induction as generalizing s with
  | nil => simp [emitted]
  | cons a as ih =>
    rw [emitted, List.mem_append, ih]
    constructor
    · rintro (now | ⟨before, b, later, rfl, mem⟩)
      · exact ⟨[], a, as, rfl, now⟩
      · exact ⟨a :: before, b, later, rfl, mem⟩
    · rintro ⟨before, b, later, split, mem⟩
      cases before with
      | nil =>
        cases split
        exact .inl mem
      | cons c before =>
        cases split
        exact .inr ⟨before, b, later, rfl, mem⟩

theorem map_emitted (f : β → γ) (s : σ) (as : List α) :
    (emitted step emit s as).map f = emitted step (fun s a => (emit s a).map f) s as := by
  induction as generalizing s with
  | nil => rfl
  | cons a as ih => rw [emitted, emitted, List.map_append, ih]

theorem filterMap_emitted (f : β → Option γ) (s : σ) (as : List α) :
    (emitted step emit s as).filterMap f =
      emitted step (fun s a => (emit s a).filterMap f) s as := by
  induction as generalizing s with
  | nil => rfl
  | cons a as ih => rw [emitted, emitted, List.filterMap_append, ih]

theorem emitted_stateless {g : α → Option β} (same : ∀ s a, emit s a = (g a).toList) (s : σ)
    (as : List α) : emitted step emit s as = as.filterMap g := by
  induction as generalizing s with
  | nil => rfl
  | cons a as ih =>
    rw [emitted, same, ih]
    cases own : g a with
    | none =>
      rw [List.filterMap_cons_none own]
      rfl
    | some c =>
      rw [List.filterMap_cons_some own]
      rfl

theorem emitted_nil {ok : σ → α → Prop} (silent : ∀ s a, ok s a → emit s a = []) {s : σ}
    {as : List α} (meets : Meets step ok s as) : emitted step emit s as = [] := by
  induction as generalizing s with
  | nil => rfl
  | cons a as ih => rw [emitted, silent s a meets.1, ih meets.2, List.append_nil]

end Refinement

/- Each thing that is granted is used once at most, and held until then at most. -/
theorem used_and_held {step : σ → α → σ} {hold : σ → List γ} {uses grants : σ → α → List γ}
    (once : ∀ s a, (uses s a ++ hold (step s a)).Subperm (hold s ++ grants s a))
    (s : σ) (as : List α) :
    (emitted step uses s as ++ hold (run step s as)).Subperm
      (hold s ++ emitted step grants s as) := by
  induction as generalizing s with
  | nil =>
    rw [emitted, emitted, List.append_nil]
    exact List.Subperm.refl _
  | cons a as ih =>
    have now := (once s a).append (List.Subperm.refl (emitted step grants (step s a) as))
    have later := (List.Subperm.refl (uses s a)).append (ih (step s a))
    rw [List.append_assoc, List.append_assoc] at now
    rw [emitted, emitted, run_cons, List.append_assoc]
    exact later.trans now

end Runs
