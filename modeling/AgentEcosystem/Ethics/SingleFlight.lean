import AgentEcosystem.Ethics.EthicsService

/-!
Any number of reviews on one service, in any order the lock allows. Whoever awaits
the provider found no cached rejection of its subject behind the lock, and nobody
else can write the cache until it is done.
-/
namespace EthicsService
open AgentSchemas GuardedSection Runs

abbrev serve (I : Interpreter) (as : List ReviewAction) : Reviews :=
  run (step (review I)) newService as

def OneInFlight (s : Reviews) : Prop :=
  ∀ (i j : ℕ) req req' call call', s.tasks[i]? = some ⟨req, .inside call⟩ →
    s.tasks[j]? = some ⟨req', .inside call'⟩ → i = j

def Calls (s : Reviews) (key : Key) : Prop :=
  ∃ (i : ℕ) (req : EthicsReviewRequest) (call : ProviderCall), cacheKey req = key ∧
    s.tasks[i]? = some ⟨req, .inside call⟩

def StartsCall (s t : Reviews) (key : Key) : Prop :=
  ∃ (i : ℕ) (req : EthicsReviewRequest) (call : ProviderCall), cacheKey req = key ∧
    t.tasks[i]? = some ⟨req, .inside call⟩ ∧ s.tasks[i]? ≠ some ⟨req, .inside call⟩

def Returns (s t : Reviews) (key : Key) (v : EthicsVerdict) : Prop :=
  ∃ (i : ℕ) (req : EthicsReviewRequest), cacheKey req = key ∧
    t.tasks[i]? = some ⟨req, .done (.ok v)⟩ ∧ s.tasks[i]? ≠ some ⟨req, .done (.ok v)⟩

def NoReject (cache : Cache) (req : EthicsReviewRequest) (_ : ProviderCall) : Prop :=
  cachedReject cache (cacheKey req) = none

section Schedules
variable {I : Interpreter}

theorem beginReview_call {cache : Cache} {req : EthicsReviewRequest} {reads : PromptReads}
    {call : ProviderCall} (begun : beginReview I cache req reads = .inl call) :
    NoReject cache req call := by
  unfold beginReview at begun
  split at begun
  · cases begun
  · next nothing => exact nothing

theorem beginReview_rejected {cache : Cache} {req : EthicsReviewRequest} {v : EthicsVerdict}
    (rejected : cachedReject cache (cacheKey req) = some v) (reads : PromptReads) :
    beginReview I cache req reads = .inr (.ok v) := by
  unfold beginReview
  rw [rejected]

theorem endReview_raises {cache : Cache} {req : EthicsReviewRequest} {call : ProviderCall}
    {reply : Reply} {e : ReviewError} (raised : (endReview I cache req call reply).2 = .error e) :
    (endReview I cache req call reply).1 = cache := by
  unfold endReview at raised ⊢
  split at raised
  · cases raised
  · rfl

/- What a review writes is under its own key. -/
theorem endReview_other {cache : Cache} {req : EthicsReviewRequest} (call : ProviderCall)
    (reply : Reply) {key : Key} (other : key ≠ cacheKey req) :
    cachedReject (endReview I cache req call reply).1 key = cachedReject cache key := by
  unfold endReview
  cases conclude I req call reply with
  | ok v => exact congrArg (Option.filter _) (Function.update_of_ne other (some v) cache)
  | error e => rfl

/-- A rejection of the key is cached, and every awaiting review found its own
    subject not rejected. -/
structure Rejected (s : Reviews) (key : Key) (v : EthicsVerdict) : Prop where
  guarded : Guarded NoReject s
  cached : cachedReject s.shared key = some v

theorem rejected_calls {s : Reviews} {key : Key} {v : EthicsVerdict} (h : Rejected s key v) :
    ¬ Calls s key := by
  rintro ⟨i, req, call, rfl, inside⟩
  have nothing := (h.guarded i req call inside).2
  rw [NoReject, h.cached] at nothing
  cases nothing

theorem rejected_step (s : Reviews) (a : ReviewAction) {key : Key} {v : EthicsVerdict}
    (h : Rejected s key v) : Rejected (step (review I) s a) key v := by
  constructor
  · exact guarded_step (review I) (fun _ _ _ _ => beginReview_call) s a h.guarded
  · by_cases changed : (step (review I) s a).shared = s.shared
    · rw [changed]
      exact h.cached
    · obtain ⟨i, reply, req, call, _, inside, shared, _⟩ :=
        shared_changes (step_goes (review I) s a) changed
      have other : key ≠ cacheKey req := fun same =>
        rejected_calls h ⟨i, req, call, same.symm, inside⟩
      rw [shared]
      exact (endReview_other call reply other).trans h.cached

theorem rejected_starts {s : Reviews} {key : Key} {v : EthicsVerdict} (h : Rejected s key v)
    (a : ReviewAction) : ¬ StartsCall s (step (review I) s a) key := by
  rintro ⟨i, req, call, rfl, now, before⟩
  obtain ⟨_, _, _, _, entered⟩ := entered_of_inside (step_goes (review I) s a) now before
  have nothing := beginReview_call entered
  rw [NoReject, h.cached] at nothing
  cases nothing

theorem early_rejected {s : Reviews} {req : EthicsReviewRequest} {v w : EthicsVerdict}
    (rejected : cachedReject s.shared (cacheKey req) = some v)
    (found : (review I).early s.shared req = some (.ok w)) : w = v := by
  change (cachedReject s.shared (cacheKey req)).map Except.ok = some (.ok w) at found
  rw [rejected] at found
  cases found
  rfl

theorem rejected_returns {s : Reviews} {key : Key} {v w : EthicsVerdict} (h : Rejected s key v)
    {a : ReviewAction} (returned : Returns s (step (review I) s a) key w) : w = v := by
  obtain ⟨i, req, rfl, now, before⟩ := returned
  generalize result_is : (Except.ok w : ReviewResult) = result at now before
  have yields := yields_of_done (step_goes (review I) s a) now before
  cases yields with
  | early found =>
    subst result_is
    exact early_rejected h.cached found
  | ended ended =>
    subst result_is
    have begun := (beginReview_rejected h.cached _).symm.trans ended
    cases begun
    rfl
  | left inside => exact absurd ⟨i, req, _, rfl, inside⟩ (rejected_calls h)
  | cancelled => cases result_is

theorem raised_keeps (before later : List ReviewAction) (a : ReviewAction) {i : ℕ}
    {req : EthicsReviewRequest} {e : ReviewError} (mine : actor (serve I before) a = i)
    (raised : (serve I (before ++ a :: later)).tasks[i]? = some ⟨req, .done (.error e)⟩) :
    (step (review I) (serve I before) a).shared = (serve I before).shared := by
  by_contra changed
  obtain ⟨j, reply, req', call, rfl, _, shared, done⟩ :=
    shared_changes (step_goes (review I) _ a) changed
  obtain rfl : j = i := mine
  rw [serve, run_append, run_cons] at raised
  have ended := (done_run done later).symm.trans raised
  have result := congrArg Task.phase (Option.some.inj ended)
  rw [shared] at changed
  exact changed (endReview_raises (Phase.done.inj result))

/-- On every schedule of any reviews: one provider call at a time; a cached
    rejection stays, no further call of its key starts or is under way, and it is
    what every later review of the key returns; a review that raises has not
    touched the cache. -/
theorem reviews_single_flight (I : Interpreter) (as : List ReviewAction) :
    OneInFlight (serve I as) ∧
    (∀ key v, cachedReject (serve I as).shared key = some v → ∀ later a,
      let s := serve I (as ++ later)
      let t := step (review I) s a
      cachedReject t.shared key = some v ∧ ¬ Calls s key ∧ ¬ StartsCall s t key ∧
        ∀ w, Returns s t key w → w = v) ∧
    (∀ before a later, as = before ++ a :: later → ∀ (i : ℕ) req e,
      (serve I as).tasks[i]? = some ⟨req, .done (.error e)⟩ →
      actor (serve I before) a = i →
      (step (review I) (serve I before) a).shared = (serve I before).shared) := by
  have guarded : Guarded NoReject (serve I as) :=
    guarded_run (review I) (fun _ _ _ _ => beginReview_call) _ as
  refine ⟨?_, ?_, ?_⟩
  · intro i j req req' call call' first second
    exact one_inside guarded first second
  · intro key v cached later a
    have rejected : Rejected (serve I (as ++ later)) key v := by
      rw [serve, run_append]
      exact run_invariant _ (Rejected · key v) (fun s a h => rejected_step s a h)
        ⟨guarded, cached⟩ later
    exact ⟨(rejected_step _ a rejected).cached, rejected_calls rejected,
      rejected_starts rejected a, fun w returned => rejected_returns rejected returned⟩
  · rintro before a later rfl i req e raised mine
    exact raised_keeps before later a mine raised

end Schedules

end EthicsService
