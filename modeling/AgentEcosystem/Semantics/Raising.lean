/-!
Programs that may raise. An exception ends the program but does not undo what
the program already did to its state, as in a language whose objects outlive
the call that changed them. The rules say what a run does to the state, on
every path, from what its parts do.
-/

abbrev Raising (ε σ : Type) := ExceptT ε (StateM σ)

namespace Raising
variable {ε σ α β : Type}

/-- The result of a run and the state it leaves behind, also when it raises. -/
def outcome (x : Raising ε σ α) (s : σ) : Except ε α × σ := x.run.run s

def after (x : Raising ε σ α) (s : σ) : σ := (outcome x s).2

def attempt {ε' : Type} (wrap : ε' → ε) (r : Except ε' α) : Raising ε σ α :=
  match r with
  | .ok a => pure a
  | .error e => throw (wrap e)

def relabel {ε' : Type} (wrap : ε' → ε) (x : Raising ε' σ α) : Raising ε σ α :=
  ExceptT.adapt wrap x

/-- Run `x` and go on whether it returned or raised. -/
def swallow {ε' : Type} (x : Raising ε' σ α) : Raising ε σ Unit :=
  ExceptT.mk do
    let _ ← x.run
    return .ok ()

@[simp] theorem outcome_throw (e : ε) (s : σ) :
    outcome (throw e : Raising ε σ α) s = (.error e, s) := rfl

@[simp] theorem outcome_get (s : σ) : outcome (get : Raising ε σ σ) s = (.ok s, s) := rfl

theorem outcome_bind (x : Raising ε σ α) (f : α → Raising ε σ β) (s : σ) :
    outcome (x >>= f) s =
      match outcome x s with
      | (.ok a, t) => outcome (f a) t
      | (.error e, t) => (.error e, t) := by
  simp only [outcome, ExceptT.run_bind, StateT.run_bind]
  rcases x.run.run s with ⟨_ | a, t⟩ <;> rfl

@[simp] theorem outcome_attempt_ok {ε' : Type} (wrap : ε' → ε) (a : α) (s : σ) :
    outcome (attempt wrap (.ok a) : Raising ε σ α) s = (.ok a, s) := rfl

theorem ok_of_bind {x : Except ε α} {f : α → Except ε β} {b : β} (h : x >>= f = .ok b) :
    ∃ a, x = .ok a ∧ f a = .ok b := by
  cases x with
  | error e => cases h
  | ok a => exact ⟨a, rfl, h⟩

theorem ok_of_mapError {ε' : Type} {wrap : ε → ε'} {r : Except ε α} {a : α}
    (h : r.mapError wrap = .ok a) : r = .ok a := by
  cases r with
  | error e => cases h
  | ok a' =>
    cases h
    rfl

theorem mapM_ok {f : α → Except ε β} {g : α → β} {xs : List α} (h : ∀ x ∈ xs, f x = .ok (g x)) :
    xs.mapM f = .ok (xs.map g) := by
  induction xs with
  | nil => rfl
  | cons x xs ih =>
    have later := ih fun y mem => h y (List.mem_cons_of_mem x mem)
    rw [List.mapM_cons, h x List.mem_cons_self, later]
    rfl

theorem ok_of_mapM {f : α → Except ε β} {xs : List α} {ys : List β} (h : xs.mapM f = .ok ys) :
    ∀ x ∈ xs, ∃ y, f x = .ok y := by
  induction xs generalizing ys with
  | nil => simp
  | cons x xs ih =>
    rw [List.mapM_cons] at h
    obtain ⟨y, first, h⟩ := ok_of_bind h
    obtain ⟨zs, later, _⟩ := ok_of_bind h
    simp only [List.forall_mem_cons]
    exact ⟨⟨y, first⟩, ih later⟩

theorem mapM_ok_iff {f : α → Except ε β} {xs : List α} :
    (∃ ys, xs.mapM f = .ok ys) ↔ ∀ x ∈ xs, ∃ y, f x = .ok y := by
  constructor
  · rintro ⟨ys, all⟩
    exact ok_of_mapM all
  · intro each
    induction xs with
    | nil => exact ⟨[], rfl⟩
    | cons x xs ih =>
      obtain ⟨y, first⟩ := each x List.mem_cons_self
      obtain ⟨ys, later⟩ := ih fun z mem => each z (List.mem_cons_of_mem x mem)
      exact ⟨y :: ys, by rw [List.mapM_cons, first, later]; rfl⟩

theorem mapM_error_iff {f : α → Except ε β} {xs : List α} {e : ε} :
    xs.mapM f = .error e ↔ ∃ before x after, xs = before ++ x :: after ∧
      (∀ y ∈ before, ∃ b, f y = .ok b) ∧ f x = .error e := by
  induction xs with
  | nil =>
    constructor
    · intro failed
      cases failed
    · rintro ⟨before, x, after, split, _⟩
      simp at split
  | cons x xs ih =>
    rw [List.mapM_cons]
    rcases first : f x with e' | b
    · constructor
      · intro failed
        cases failed
        exact ⟨[], x, xs, rfl, by simp, first⟩
      · rintro ⟨before, y, after, split, fine, failed⟩
        cases before with
        | nil =>
          cases split
          cases first.symm.trans failed
          rfl
        | cons z before =>
          cases split
          obtain ⟨b, succeeded⟩ := fine x List.mem_cons_self
          rw [first] at succeeded
          cases succeeded
    · have rest : (do let ys ← xs.mapM f; pure (b :: ys)) = .error e ↔ xs.mapM f = .error e := by
        rcases xs.mapM f with e' | ys
        · exact Iff.rfl
        · exact ⟨nofun, nofun⟩
      refine rest.trans (ih.trans ?_)
      constructor
      · rintro ⟨before, y, after, rfl, fine, failed⟩
        exact ⟨x :: before, y, after, rfl, List.forall_mem_cons.mpr ⟨⟨b, first⟩, fine⟩, failed⟩
      · rintro ⟨before, y, after, split, fine, failed⟩
        cases before with
        | nil =>
          cases split
          rw [first] at failed
          cases failed
        | cons z before =>
          cases split
          exact ⟨before, y, after, rfl, (List.forall_mem_cons.mp fine).2, failed⟩

theorem after_ignored (x : Raising ε σ α) (b : β) (s : σ) :
    after (x >>= fun _ => pure b) s = after x s := by
  rw [after, after, outcome_bind]
  rcases outcome x s with ⟨_ | a, t⟩ <;> rfl

/-- What holds when a run returns, and what holds when it raises. -/
def Ensures (x : Raising ε σ α) (s : σ) (returns : α → σ → Prop) (raises : ε → σ → Prop) : Prop :=
  match outcome x s with
  | (.ok a, t) => returns a t
  | (.error e, t) => raises e t

section Rules
variable {s t : σ} {returns : α → σ → Prop} {raises : ε → σ → Prop}

theorem ensures_pure {a : α} (h : returns a s) : Ensures (pure a) s returns raises := h

theorem ensures_throw {e : ε} (h : raises e s) : Ensures (throw e) s returns raises := h

theorem ensures_outcome {x : Raising ε σ α} :
    Ensures x s (fun a t => outcome x s = (.ok a, t)) fun e t => outcome x s = (.error e, t) := by
  unfold Ensures
  split <;> assumption

theorem ensures_modify {returns : PUnit → σ → Prop} {f : σ → σ} (h : returns ⟨⟩ (f s)) :
    Ensures (modify f) s returns raises := h

theorem ensures_get {returns : σ → σ → Prop} (h : returns s s) :
    Ensures get s returns raises := h

theorem ensures_set {returns : PUnit → σ → Prop} (h : returns ⟨⟩ t) :
    Ensures (set t) s returns raises := h

theorem ensures_attempt {ε' : Type} {wrap : ε' → ε} {r : Except ε' α}
    (ok : ∀ a, r = .ok a → returns a s) (error : ∀ e, r = .error e → raises (wrap e) s) :
    Ensures (attempt wrap r) s returns raises := by
  cases r with
  | ok a => exact ok a rfl
  | error e => exact error e rfl

theorem ensures_attempt_ok {ε' : Type} {wrap : ε' → ε} {a : α} (h : returns a s) :
    Ensures (attempt wrap (.ok a)) s returns raises := h

theorem ensures_bind {x : Raising ε σ α} {f : α → Raising ε σ β} {returns : β → σ → Prop}
    (h : Ensures x s (fun a t => Ensures (f a) t returns raises) raises) :
    Ensures (x >>= f) s returns raises := by
  unfold Ensures at h ⊢
  rw [outcome_bind]
  rcases run : outcome x s with ⟨_ | a, t⟩ <;> rw [run] at h <;> exact h

theorem ensures_relabel {ε' : Type} {wrap : ε' → ε} {x : Raising ε' σ α}
    (h : Ensures x s returns fun e t => raises (wrap e) t) :
    Ensures (relabel wrap x) s returns raises := by
  have run : outcome (relabel wrap x) s = ((outcome x s).1.mapError wrap, (outcome x s).2) := rfl
  unfold Ensures at h ⊢
  rw [run]
  rcases inner : outcome x s with ⟨_ | a, t⟩ <;> rw [inner] at h <;> exact h

/- Either way out of the body is a way on. -/
theorem ensures_swallow {ε' : Type} {x : Raising ε' σ α} {returns : Unit → σ → Prop}
    (h : Ensures x s (fun _ t => returns () t) fun _ t => returns () t) :
    Ensures (swallow x) s returns raises := by
  have run : outcome (swallow x : Raising ε σ Unit) s = (.ok (), (outcome x s).2) := rfl
  unfold Ensures at h ⊢
  rw [run]
  rcases inner : outcome x s with ⟨_ | a, t⟩ <;> rw [inner] at h <;> exact h

theorem ensures_mono {x : Raising ε σ α} {returns' : α → σ → Prop} {raises' : ε → σ → Prop}
    (h : Ensures x s returns raises) (ok : ∀ a t, returns a t → returns' a t)
    (error : ∀ e t, raises e t → raises' e t) : Ensures x s returns' raises' := by
  unfold Ensures at h ⊢
  rcases run : outcome x s with ⟨_ | a, t⟩ <;> rw [run] at h
  · exact error _ _ h
  · exact ok _ _ h

theorem ensures_of_returns {x : Raising ε σ α} {a : α} (h : Ensures x s returns raises)
    (run : outcome x s = (.ok a, t)) : returns a t := by
  unfold Ensures at h
  rwa [run] at h

theorem ensures_of_raises {x : Raising ε σ α} {e : ε} (h : Ensures x s returns raises)
    (run : outcome x s = (.error e, t)) : raises e t := by
  unfold Ensures at h
  rwa [run] at h

theorem ensures_of_ok {x : Raising ε σ α} {a : α} (h : Ensures x s returns raises)
    (run : (outcome x s).1 = .ok a) : returns a (after x s) :=
  ensures_of_returns h (Prod.ext run rfl)

theorem returns_of_ensures {x : Raising ε σ α} (h : Ensures x s returns fun _ _ => False) :
    ∃ a, (outcome x s).1 = .ok a ∧ returns a (after x s) := by
  unfold Ensures at h
  unfold after
  rcases run : outcome x s with ⟨_ | a, t⟩ <;> rw [run] at h
  · exact h.elim
  · exact ⟨a, rfl, h⟩

theorem ensures_after {x : Raising ε σ α} {Q : σ → Prop}
    (h : Ensures x s (fun _ t => Q t) fun _ t => Q t) : Q (after x s) := by
  unfold Ensures at h
  unfold after
  rcases run : outcome x s with ⟨_ | a, t⟩ <;> rw [run] at h <;> exact h

/- A loop, with what holds when a part of the list is done. -/
theorem ensures_foldlM {β : Type} {f : β → α → Raising ε σ β} {Inv : List α → β → σ → Prop}
    (xs : List α) {b : β} (init : Inv [] b s)
    (body : ∀ done x rest b s, xs = done ++ x :: rest → Inv done b s →
      Ensures (f b x) s (fun b' t => Inv (done ++ [x]) b' t) raises) :
    Ensures (xs.foldlM f b) s (Inv xs) raises := by
  have loop : ∀ rest done b s, xs = done ++ rest → Inv done b s →
      Ensures (rest.foldlM f b) s (Inv xs) raises := by
    intro rest
    induction rest with
    | nil =>
      intro done b s whole inv
      rw [List.append_nil] at whole
      rw [whole]
      exact ensures_pure inv
    | cons x rest ih =>
      intro done b s whole inv
      rw [List.foldlM_cons]
      apply ensures_bind
      apply ensures_mono (body done x rest b s whole inv)
      · intro b' t inv'
        exact ih (done ++ [x]) b' t (by simp [whole]) inv'
      · intro e t raised
        exact raised
  exact loop xs [] b s rfl init

end Rules

-- a proof about a long program uses the rules and never runs it
attribute [irreducible] Ensures

end Raising
