import AgentEcosystem.Supervisor.AutoKill

/-!
What a restart keeps of a supervisor. The runs are what is stored, and a fresh
supervisor registers them again. What a child spent since its spawn is not in its
run, so the one rule that looks at it starts from zero.
-/
namespace ChildSupervisor
open AgentSchemas DecimalArithmetic OrderedDict Raising Runs

def registration (p : Uuid × ChildEntry) : Operation := .register p.2.run p.2.kill

def restarted (s : Children) : Children := run step Dict.empty (s.items.map registration)

def ChildEntry.reregistered (e : ChildEntry) : ChildEntry := { run := e.run, kill := e.kill }

def SameAfterRestart (s : Children) (childId : Uuid) (now : Option Datetime) (clock : ℤ) : Prop :=
  (outcome (evaluate childId now clock) (restarted s)).1 =
    (outcome (evaluate childId now clock) s).1

structure ChildEntry.BurnDecides (e : ChildEntry) (now : Datetime) : Prop where
  comparable : now.aware = e.run.spawnedAt.aware
  withinBudget : Decimal.le (.finite e.run.monthlyBudgetUsd) e.run.spentMtdUsd = .ok false
  burntOut : e.BurntOut

/-- A run is registered with nothing spent. Its validation lets no NaN into the revenue,
    and a signaling one is all that matters here. -/
def Operation.StartsUnspent : Operation → Prop
  | .register run _ => run.spentMtdUsd.HasValue 0 ∧ run.revenueMtdUsd.isSignaling = false
  | _ => True

/-- The entry is filed under its own run's identifier, and an amount that cannot be
    compared shows in the run as well. -/
structure Recorded (j : Uuid) (e : ChildEntry) : Prop where
  filed : e.run.id = j
  quietSpent : e.run.spentMtdUsd.isSignaling = false
  quietRevenue : e.run.revenueMtdUsd.isSignaling = false
  spendShows : e.cumulativeSpendUsd.isNaN = true → e.run.spentMtdUsd.isNaN = true

def AllRecorded (s : Children) : Prop := ∀ j e, s.get j = some e → Recorded j e

theorem sum_ok {x y v : Decimal} (h : sum x y = .ok v) : x.add defaultContext y = .ok v :=
  ok_of_mapError h

/- A sum with a quiet NaN is one, also when the other sum with it was. -/
theorem sum_of_nan {x y z v : Decimal} (first : sum x y = .ok v) (nan : y.isNaN = true)
    (quiet : z.isSignaling = false) : ∃ w, sum z y = .ok w := by
  have passed := sum_ok first
  rw [Decimal.add_of_nan (by rw [nan, Bool.or_true])] at passed
  have quietTerms := (Decimal.propagate_ok_iff.mp ⟨v, passed⟩).2
  obtain ⟨w, passed'⟩ : ∃ w, Decimal.propagate defaultContext z y = .ok w :=
    Decimal.propagate_ok_iff.mpr
      ⟨by rw [nan, Bool.or_true], by rw [quiet, (Bool.or_eq_false_iff.mp quietTerms).2]; rfl⟩
  refine ⟨w, ?_⟩
  rw [sum, Decimal.add_of_nan (by rw [nan, Bool.or_true]), passed']
  rfl

theorem recorded_spending {j : Uuid} {e : ChildEntry} (h : Recorded j e) (amountUsd : Decimal) :
    Recorded j (e.spending amountUsd) := by
  unfold ChildEntry.spending
  rcases first : sum e.cumulativeSpendUsd amountUsd with signal | cumulative
  · exact h
  · have cumulativeNaN := (Decimal.add_isNaN (sum_ok first)).1
    rcases second : sum e.run.spentMtdUsd amountUsd with signal | spent
    · refine ⟨h.filed, h.quietSpent, h.quietRevenue, ?_⟩
      intro nan
      rw [cumulativeNaN, Bool.or_eq_true] at nan
      rcases nan with before | added
      · exact h.spendShows before
      · obtain ⟨w, added'⟩ := sum_of_nan first added h.quietSpent
        rw [second] at added'
        cases added'
    · obtain ⟨spentNaN, quiet⟩ := Decimal.add_isNaN (sum_ok second)
      refine ⟨h.filed, quiet, h.quietRevenue, ?_⟩
      intro nan
      rw [cumulativeNaN, Bool.or_eq_true] at nan
      rw [spentNaN, Bool.or_eq_true]
      rcases nan with before | added
      · exact .inl (h.spendShows before)
      · exact .inr added

theorem recorded_earning {j : Uuid} {e : ChildEntry} (h : Recorded j e) (amountUsd : Decimal) :
    Recorded j (e.earning amountUsd) := by
  unfold ChildEntry.earning
  rcases added : sum e.run.revenueMtdUsd amountUsd with signal | revenue
  · exact h
  · exact ⟨h.filed, h.quietSpent, (Decimal.add_isNaN (sum_ok added)).2, h.spendShows⟩

theorem recorded_stopped {j : Uuid} {e : ChildEntry} (h : Recorded j e) (status : ChildStatus)
    (reason : String) : Recorded j (e.stopped status reason) :=
  ⟨h.filed, h.quietSpent, h.quietRevenue, h.spendShows⟩

theorem recorded_effect {j : Uuid} {e : ChildEntry} (h : Recorded j e) (op : Operation) :
    Recorded j (effect op j e) :=
  effect_keeps h (fun _ => ⟨h.filed, h.quietSpent, h.quietRevenue, h.spendShows⟩)
    (fun amountUsd _ => recorded_spending h amountUsd) (recorded_earning h) (recorded_stopped h)

theorem recorded_arrival {j : Uuid} {e : ChildEntry} {op : Operation} (unspent : op.StartsUnspent)
    (new : arrival op j = some e) : Recorded j e := by
  cases op with
  | register run kill =>
    by_cases here : j = run.id
    · cases (if_pos here).symm.trans new
      obtain ⟨⟨spent, isSpent, _⟩, quiet⟩ := unspent
      refine ⟨here.symm, ?_, quiet, nofun⟩
      rw [isSpent]
      rfl
    · cases (if_neg here).symm.trans new
  | _ => cases new

theorem allRecorded_step {s : Children} (h : AllRecorded s) {op : Operation}
    (unspent : op.StartsUnspent) : AllRecorded (step s op) := by
  intro j e found
  rw [get_step] at found
  rcases before : s.get j with _ | e'
  · rw [before, Option.map_none, Option.none_or] at found
    exact recorded_arrival unspent found
  · rw [before] at found
    cases found
    exact recorded_effect (h j e' before) op

theorem allRecorded_run {ops : List Operation} (unspent : ∀ op ∈ ops, op.StartsUnspent) :
    AllRecorded (run step Dict.empty ops) := by
  have meets : Meets step (fun _ op => op.StartsUnspent) Dict.empty ops :=
    meets_of_forall step fun op mem _ => unspent op mem
  apply meets_invariant step AllRecorded (fun s op unspent h => allRecorded_step h unspent) _ meets
  intro j e found
  cases found

theorem get_registered {items : List (Uuid × ChildEntry)} (filed : ∀ p ∈ items, p.2.run.id = p.1)
    (s : Children) (j : Uuid) : (run step s (items.map registration)).get j =
      (s.get j).or ((items.find? fun p => p.1 = j).map fun p => p.2.reregistered) := by
  induction items generalizing s with
  | nil => exact Option.or_none.symm
  | cons p items ih =>
    rw [List.map_cons, run_cons, ih fun q mem => filed q (List.mem_cons_of_mem p mem)]
    have here := filed p List.mem_cons_self
    have first : (step s (registration p)).get j =
        (s.get j).or (if j = p.1 then some p.2.reregistered else none) := by
      rw [get_step, ← here]
      have kept : effect (registration p) j = id := rfl
      rw [kept, Option.map_id]
      rfl
    rw [first, List.find?_cons]
    by_cases same : p.1 = j
    · simp [same]
    · simp [same, Ne.symm same]

theorem get_restarted {s : Children} (recorded : AllRecorded s) (j : Uuid) :
    (restarted s).get j = (s.get j).map .reregistered := by
  have filed : ∀ p ∈ s.items, p.2.run.id = p.1 := fun p mem =>
    (recorded p.1 p.2 (Dict.get_of_mem_items mem)).filed
  rw [restarted, get_registered filed, Dict.get, Dict.get, Option.map_map]
  rfl

section Verdict
variable {j : Uuid} {e : ChildEntry} {now : Datetime}

theorem nothing_burnt (kill : KillCriteria) :
    Decimal.le (.finite kill.maxBurnBeforeFirstDollarUsd) (.ofNat 0) = .ok false := by
  have positive : FiniteDecimal.lt (.ofNat 0) kill.maxBurnBeforeFirstDollarUsd = true :=
    kill.maxBurn_positive
  rw [Decimal.le, Decimal.ofNat, Decimal.lt, positive]
  rfl

theorem burnDecides_changes (burns : e.BurnDecides now) :
    e.reregistered.verdict now ≠ e.verdict now := by
  obtain ⟨days, since⟩ := daysSince_of_aware burns.comparable
  obtain ⟨spend, revenue⟩ := burns.burntOut
  have original := (ChildEntry.verdict_within_budget since burns.withinBudget spend revenue).trans
    (if_pos rfl)
  have again := (ChildEntry.verdict_within_budget (e := e.reregistered) since burns.withinBudget
    (nothing_burnt e.kill) revenue).trans (if_neg Bool.false_ne_true)
  rw [original, again]
  -- another rule may kill, but for another reason
  intro same
  split at same
  · simp at same
  · obtain ⟨short, _, decided⟩ := ok_of_bind same
    cases short <;> simp [pure, Except.pure] at decided

theorem same_of_not_burnDecides (recorded : Recorded j e) (other : ¬ e.BurnDecides now) :
    e.reregistered.verdict now = e.verdict now := by
  rcases since : now.daysSince e.run.spawnedAt with error | days
  · simp only [ChildEntry.verdict, ChildEntry.reregistered, since]
    rfl
  · rcases budget : Decimal.le (.finite e.run.monthlyBudgetUsd) e.run.spentMtdUsd with
      signal | _ | _
    · simp only [ChildEntry.verdict, ChildEntry.reregistered, since, budget]
      rfl
    · -- the budget's rule passed, so the amount spent is a number
      have numbers := Decimal.le_ok_iff.mp ⟨false, budget⟩
      have spendIsNumber : e.cumulativeSpendUsd.isNaN = false := by
        rw [Bool.eq_false_iff]
        intro nan
        rw [recorded.spendShows nan, Bool.or_true] at numbers
        cases numbers
      obtain ⟨burnt, spend⟩ : ∃ burnt, Decimal.le (.finite e.kill.maxBurnBeforeFirstDollarUsd)
          e.cumulativeSpendUsd = .ok burnt :=
        Decimal.le_ok_iff.mpr (by rw [spendIsNumber]; rfl)
      obtain ⟨empty, revenue⟩ : ∃ empty, e.run.revenueMtdUsd.eq (.ofNat 0) = .ok empty :=
        Decimal.eq_ok_iff.mpr (by rw [recorded.quietRevenue]; rfl)
      have passed : (burnt && empty) = false := by
        rw [Bool.eq_false_iff, Ne, Bool.and_eq_true]
        rintro ⟨rfl, rfl⟩
        exact other ⟨daysSince_ok since, budget, spend, revenue⟩
      have again := ChildEntry.verdict_within_budget (e := e.reregistered) since budget
        (nothing_burnt e.kill) revenue
      rw [again, ChildEntry.verdict_within_budget since budget spend revenue, passed]
      rfl
    · simp only [ChildEntry.verdict, ChildEntry.reregistered, since, budget]
      rfl

end Verdict

/-- In every run that registers its children with nothing spent, and for every child
    at every time: a restart keeps what is decided about the child exactly when it is
    not rule 3 that decides. -/
theorem restart_same_iff {ops : List Operation} (unspent : ∀ op ∈ ops, op.StartsUnspent)
    {childId : Uuid} {e : ChildEntry} (found : (run step Dict.empty ops).get childId = some e)
    (now : Option Datetime) (clock : ℤ) :
    SameAfterRestart (run step Dict.empty ops) childId now clock ↔
      ¬ e.BurnDecides (orClock now clock) := by
  have recorded := allRecorded_run unspent
  have again : (restarted (run step Dict.empty ops)).get childId = some e.reregistered := by
    rw [get_restarted recorded, found]
    rfl
  rw [SameAfterRestart, evaluate_found now clock found, evaluate_found now clock again]
  constructor
  · intro same burns
    exact burnDecides_changes burns same
  · intro other
    exact same_of_not_burnDecides (recorded childId e found) other

def earningOps : List Operation :=
  [.register (budgetRun (.ofNat 0)) usualCriteria, .recordSpend ⟨0xc1⟩ (.ofNat 35),
    .recordRevenue ⟨0xc1⟩ (.ofNat 20)]

theorem restart_same_earning :
    SameAfterRestart (run step Dict.empty earningOps) ⟨0xc1⟩ (some (.utc 0)) 0 := by
  have unspent : ∀ op ∈ earningOps, op.StartsUnspent := by
    simp only [earningOps, List.forall_mem_cons, List.not_mem_nil, false_implies, implies_true,
      and_true]
    exact ⟨⟨Decimal.hasValue_zero, rfl⟩, trivial, trivial⟩
  have found : (run step Dict.empty earningOps).get ⟨0xc1⟩ =
      some { run := { budgetRun (.ofNat 35) with revenueMtdUsd := .ofNat 20 },
             kill := usualCriteria, cumulativeSpendUsd := .ofNat 35 } := rfl
  apply (restart_same_iff unspent found (some (.utc 0)) 0).mpr
  rintro ⟨_, _, _, empty⟩
  cases empty

/-- A child that spent 35 of its 100 dollars without any revenue is killed, and kept
    after a restart. -/
theorem burnt_out_child_kept : ¬ SameAfterRestart
    (run step Dict.empty [.register (budgetRun (.ofNat 0)) usualCriteria,
      .recordSpend ⟨0xc1⟩ (.ofNat 35)]) ⟨0xc1⟩ (some (.utc 0)) 0 := by
  intro same
  have killed : (outcome (evaluate ⟨0xc1⟩ (some (.utc 0)) 0)
      (run step Dict.empty [.register (budgetRun (.ofNat 0)) usualCriteria,
        .recordSpend ⟨0xc1⟩ (.ofNat 35)])).1 = .ok ⟨.kill, "burn_without_revenue"⟩ := rfl
  have kept : (outcome (evaluate ⟨0xc1⟩ (some (.utc 0)) 0) (restarted
      (run step Dict.empty [.register (budgetRun (.ofNat 0)) usualCriteria,
        .recordSpend ⟨0xc1⟩ (.ofNat 35)]))).1 = .ok ⟨.keep, "ok"⟩ := rfl
  rw [SameAfterRestart, killed, kept] at same
  cases same

end ChildSupervisor
