import AgentEcosystem.Tools.Retirement

/-!
The registry as the history of its calls. What stands under a digest is what the last
registration put there and the retirements behind it left of it, so the calls alone
decide from which path an invocation imports what it executes.
-/
namespace ToolRegistry
open AgentSchemas CanonicalJson CodeBuilder Raising Runs ToolRuntime UnicodeText

def retirements (sha : String) (calls : List RegistryCall) : List Timestamp :=
  calls.filterMap fun
    | .register _ _ _ => none
    | .retire sha' now => if sha' = sha then some now else none

def RegisteredTool.retiredBy (rt : RegisteredTool) (times : List Timestamp) : RegisteredTool :=
  match times.getLast? with
  | none => rt
  | some now => { rt with status := .retired, retiredAt := some now }

structure LastRegistered (calls : List RegistryCall) (artifact : ToolArtifact)
    (buildRequest : BuildRequest) (now : Timestamp) (later : List RegistryCall) : Prop where
  called : ∃ before, calls = before ++ .register artifact buildRequest now :: later
  admitted : Admitted artifact buildRequest
  spared : ∀ call ∈ later, call.Spares artifact.sha256

theorem retiredBy_nil (rt : RegisteredTool) : rt.retiredBy [] = rt := rfl

theorem retiredBy_append (rt : RegisteredTool) (times : List Timestamp) (now : Timestamp) :
    rt.retiredBy (times ++ [now]) = { rt with status := .retired, retiredAt := some now } := by
  rw [RegisteredTool.retiredBy, List.getLast?_append]
  rfl

theorem retiredBy_recorded (rt : RegisteredTool) (times : List Timestamp) :
    (rt.retiredBy times).recorded = rt.recorded := by
  unfold RegisteredTool.retiredBy
  split
  · rfl
  · rfl

theorem retiredBy_status {rt : RegisteredTool} (new : rt.status = .registered)
    (times : List Timestamp) : (rt.retiredBy times).status = .registered ↔ times = [] := by
  unfold RegisteredTool.retiredBy
  split
  · next empty => simpa [new] using empty
  · next now last =>
    constructor
    · intro current
      cases current
    · rintro rfl
      cases last

theorem retirements_append (sha : String) (calls calls' : List RegistryCall) :
    retirements sha (calls ++ calls') = retirements sha calls ++ retirements sha calls' :=
  List.filterMap_append

theorem callStep_retiredBy {sha : String} {bySha : Registry} {rt : RegisteredTool}
    {later : List RegistryCall} (found : bySha sha = some (rt.retiredBy (retirements sha later)))
    {call : RegistryCall} (spares : call.Spares sha) :
    callStep bySha call sha = some (rt.retiredBy (retirements sha (later ++ [call]))) := by
  rw [retirements_append]
  cases call with
  | register artifact buildRequest now =>
    rw [callStep_register_other spares, found]
    have none : retirements sha [.register artifact buildRequest now] = [] := rfl
    rw [none, List.append_nil]
  | retire sha' now =>
    by_cases same : sha' = sha
    · subst same
      have one : retirements sha' [.retire sha' now] = [now] := by simp [retirements]
      rw [one, retiredBy_append, callStep, after, outcome_retire found]
      refine (Function.update_self ..).trans ?_
      unfold RegisteredTool.retiredBy
      split
      · rfl
      · rfl
    · have none : retirements sha [.retire sha' now] = [] := by simp [retirements, same]
      rw [none, List.append_nil, ← found, callStep, after]
      rcases there : bySha sha' with _ | other
      · obtain ⟨e, unknown⟩ := outcome_retire_unknown there now
        rw [unknown]
      · rw [outcome_retire there]
        exact Function.update_of_ne (Ne.symm same) _ _

theorem callStep_absent {sha : String} {bySha : Registry} (absent : bySha sha = none)
    {call : RegistryCall} (spares : call.Spares sha) : callStep bySha call sha = none := by
  rcases callStep_other spares bySha with same | ⟨rt, now, found, _⟩
  · rw [same, absent]
  · rw [absent] at found
    cases found

section Histories
variable {calls : List RegistryCall} {sha : String}

theorem LastRegistered.snoc {artifact : ToolArtifact} {buildRequest : BuildRequest}
    {now : Timestamp} {later : List RegistryCall}
    (last : LastRegistered calls artifact buildRequest now later) {call : RegistryCall}
    (spares : call.Spares artifact.sha256) :
    LastRegistered (calls ++ [call]) artifact buildRequest now (later ++ [call]) := by
  obtain ⟨⟨before, rfl⟩, admitted, spared⟩ := last
  refine ⟨⟨before, by simp⟩, admitted, ?_⟩
  intro other mem
  rcases List.mem_append.mp mem with old | new
  · exact spared other old
  · cases List.mem_singleton.mp new
    exact spares

theorem LastRegistered.entry {artifact : ToolArtifact} {buildRequest : BuildRequest}
    {now : Timestamp} {later : List RegistryCall}
    (last : LastRegistered calls artifact buildRequest now later) :
    run callStep newRegistry calls artifact.sha256 =
      some ((entryOf artifact buildRequest now).retiredBy (retirements artifact.sha256 later)) := by
  obtain ⟨⟨before, rfl⟩, admitted, spared⟩ := last
  rw [run_append, run_cons]
  -- the entry is there behind the registration, and each later call keeps up with it
  induction later using List.reverseRecOn with
  | nil => exact callStep_registers admitted now _
  | append_singleton later call ih =>
    rw [run_append]
    apply callStep_retiredBy
    · exact ih fun other mem => spared other (List.mem_append_left _ mem)
    · exact spared call (by simp)

/- No entry, or one from the last registration. -/
theorem entry_history (calls : List RegistryCall) (sha : String) :
    run callStep newRegistry calls sha = none ∨
      ∃ artifact buildRequest now later,
        LastRegistered calls artifact buildRequest now later ∧ artifact.sha256 = sha := by
  induction calls using List.reverseRecOn with
  | nil => exact .inl rfl
  | append_singleton calls call ih =>
    by_cases spares : call.Spares sha
    · rcases ih with absent | ⟨artifact, buildRequest, now, later, last, rfl⟩
      · left
        rw [run_append]
        exact callStep_absent absent spares
      · exact .inr ⟨_, _, _, _, last.snoc spares, rfl⟩
    · cases call with
      | retire sha' now => exact absurd trivial spares
      | register artifact buildRequest now =>
        rw [RegistryCall.Spares, Classical.not_imp, not_not] at spares
        exact .inr ⟨_, _, _, [], ⟨⟨calls, rfl⟩, spares.2, by simp⟩, spares.1⟩

end Histories

/-- After any calls on a new registry, what stands under a digest is what the last
    registration under it recorded, with the last retirement behind it if there is
    one, and an invocation executes code exactly when there is no such retirement and
    the path that this registration recorded imports it. -/
theorem registry_history (calls : List RegistryCall) (sha : String) :
    (∀ rt, run callStep newRegistry calls sha = some rt ↔
      ∃ artifact buildRequest now later,
        LastRegistered calls artifact buildRequest now later ∧ artifact.sha256 = sha ∧
        rt = (entryOf artifact buildRequest now).retiredBy (retirements sha later)) ∧
    ∀ (Code Payload Output Exception : Type) (py : Interpreter Code Payload Output Exception)
      (files : Files) (mtime : ℤ) (payload : Payload) (wallSeconds : PyFloat) (code : Code),
      executed py files mtime payload wallSeconds (run callStep newRegistry calls) sha = some code ↔
        ∃ artifact buildRequest now later,
          LastRegistered calls artifact buildRequest now later ∧ artifact.sha256 = sha ∧
          retirements sha later = [] ∧ Loads py files mtime artifact.codePath code := by
  have entries : ∀ rt, run callStep newRegistry calls sha = some rt ↔
      ∃ artifact buildRequest now later,
        LastRegistered calls artifact buildRequest now later ∧ artifact.sha256 = sha ∧
        rt = (entryOf artifact buildRequest now).retiredBy (retirements sha later) := by
    intro rt
    constructor
    · intro found
      rcases entry_history calls sha with absent | ⟨artifact, buildRequest, now, later, last, rfl⟩
      · rw [absent] at found
        cases found
      · refine ⟨artifact, buildRequest, now, later, last, rfl, ?_⟩
        rw [last.entry] at found
        exact (Option.some.inj found).symm
    · rintro ⟨artifact, buildRequest, now, later, last, rfl, rfl⟩
      exact last.entry
  refine ⟨entries, ?_⟩
  intro Code Payload Output Exception py files mtime payload wallSeconds code
  have path : ∀ (artifact : ToolArtifact) (buildRequest : BuildRequest) (now : Timestamp) times,
      ((entryOf artifact buildRequest now).retiredBy times).codePath = artifact.codePath :=
    fun artifact buildRequest now times =>
      congrArg Prod.fst (retiredBy_recorded (entryOf artifact buildRequest now) times)
  rw [executed_iff]
  constructor
  · rintro ⟨rt, found, current, loads⟩
    obtain ⟨artifact, buildRequest, now, later, last, same, rfl⟩ := (entries rt).mp found
    rw [path] at loads
    exact ⟨artifact, buildRequest, now, later, last, same,
      (retiredBy_status rfl _).mp current, loads⟩
  · rintro ⟨artifact, buildRequest, now, later, last, same, none, loads⟩
    refine ⟨entryOf artifact buildRequest now, (entries _).mpr
      ⟨artifact, buildRequest, now, later, last, same, ?_⟩, rfl, loads⟩
    rw [none, retiredBy_nil]

end ToolRegistry
