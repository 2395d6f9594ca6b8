import AgentEcosystem.Semantics.Runs
import Mathlib.Algebra.Group.Defs
import Mathlib.Order.Defs.PartialOrder
import Mathlib.Logic.Function.Basic

/-!
Accounts with rules for what leaves them, in exact arithmetic. Any amount may be
paid in. An account either keeps a floor under every withdrawal, or gives nothing
away except under a label that its rule accepts.
-/
namespace GuardedAccounts
open Runs

inductive Rule (α κ : Type*) where
  | floor (low : α)
  | reserved (may : κ → Prop)

structure Move (ι α κ : Type*) where
  account : ι
  amount : α
  label : κ

variable {ι α κ : Type*} [DecidableEq ι] [AddCommGroup α]

def post (b : ι → α) (m : Move ι α κ) : ι → α :=
  Function.update b m.account (b m.account + m.amount)

theorem post_apply (b : ι → α) (m : Move ι α κ) (i : ι) :
    post b m i = if m.account = i then b i + m.amount else b i := by
  unfold post
  by_cases same : m.account = i
  · subst same
    rw [if_pos rfl, Function.update_self]
  · rw [if_neg same, Function.update_of_ne (Ne.symm same)]

section Order
variable [Preorder α]

/-- What the rule of an account asks of a withdrawal. -/
def Rule.Permits (rule : Rule α κ) (left : α) (label : κ) : Prop :=
  match rule with
  | .floor low => low ≤ left
  | .reserved may => may label

structure Allows (rules : ι → Rule α κ) (b : ι → α) (m : Move ι α κ) : Prop where
  nonzero : m.amount ≠ 0
  permitted : m.amount < 0 → (rules m.account).Permits (b m.account + m.amount) m.label

/-- A history every move of which was allowed when it was made. -/
abbrev Legal (rules : ι → Rule α κ) (b : ι → α) (ms : List (Move ι α κ)) : Prop :=
  Meets post (Allows rules) b ms

end Order

end GuardedAccounts
