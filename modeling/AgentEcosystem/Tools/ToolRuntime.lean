import AgentEcosystem.CodeBuilder.Builder
import AgentEcosystem.Python.ByteCode
import AgentEcosystem.Tools.ToolRegistry

/-!
The runtime of the tools: an invocation looks its tool up by digest and imports what
then is at the path in the entry, or the byte-code that is cached for that path. The
state of a call is the files and the code that it executed.
-/
namespace ToolRuntime
open CanonicalJson CodeBuilder PythonImport Raising ToolRegistry UnicodeText

variable {Code Payload Output Exception : Type}

inductive Module (Payload Output Exception : Type) where
  | raised (e : Exception)
  | loaded (run : Option (Payload → Except Exception Output))

/-- The loaders among which the suffix of a path decides. -/
inductive Loader where
  | source | sourceless | extension
  deriving DecidableEq, Repr

/-- What an invocation uses from the interpreter it runs in: beyond its imports, which
    paths it has a loader for, and what the code of a module of this name executes to. -/
structure Interpreter (Code Payload Output Exception : Type) extends Importer Code Exception where
  loaderOf : String → Option Loader
  loadExtension : Bytes → Except Exception Code
  exec : String → Code → Module Payload Output Exception
  loaderOf_py : ∀ stem, loaderOf (stem ++ ".py") = some .source

inductive InvokeError (Exception : Type) where
  | policy (e : RegistryError)
  | fileNotFoundError
  | tool (e : Exception)

abbrev toolPolicyError (msg : String) : InvokeError Exception := .policy (.toolPolicyError msg)

/-- The files, and the code of the module that was executed, if one was. -/
structure Execution (Code : Type) where
  files : Files
  ran : Option Code

abbrev Executing (Code Exception : Type) := Raising (InvokeError Exception) (Execution Code)

section Invoke
variable (py : Interpreter Code Payload Output Exception)

def moduleCode (files : Files) (loader : Loader) (codePath : String) (bytes : Bytes) (mtime : ℤ) :
    Except Exception Code × Files :=
  match loader with
  | .source => getCode py.toImporter files codePath bytes mtime
  | .sourceless => (getByteCode py.toImporter bytes, files)
  | .extension => (py.loadExtension bytes, files)

/-- `mtime` is when the file at the path was last modified. -/
def loadModule (sha codePath : String) (mtime : ℤ) :
    Executing Code Exception (Option (Payload → Except Exception Output)) := do
  let files := (← get).files
  match py.loaderOf codePath, files codePath with
  | none, _ => throw (toolPolicyError s!"cannot load tool module at {codePath}")
  | some _, none => throw .fileNotFoundError
  | some loader, some bytes =>
    let (code, files) := moduleCode py files loader codePath bytes mtime
    modify fun s => { s with files := files }
    let code ← attempt .tool code
    modify fun s => { s with ran := some code }
    match py.exec s!"tool_{sha}" code with
    | .raised e => throw (.tool e)
    | .loaded run => return run

/-- The output of the tool and the seconds that passed on the clock. -/
def invoke (mtime : ℤ) (registry : Registry) (sha : String) (payload : Payload)
    (wallSeconds : PyFloat) : Executing Code Exception (Output × PyFloat) := do
  let rt ← attempt .policy (findTool registry sha)
  let files := (← get).files
  if rt.status = .retired then
    throw (toolPolicyError s!"tool {sha} is retired")
  else if files rt.codePath = none then
    throw (toolPolicyError s!"tool code missing at {rt.codePath}")
  else do
    match ← loadModule py rt.sha256 rt.codePath mtime with
    | none => throw (toolPolicyError "tool missing run(payload) entrypoint")
    | some run =>
      let output ← attempt .tool (run payload)
      return (output, wallSeconds)

variable (files : Files) (mtime : ℤ) (payload : Payload) (wallSeconds : PyFloat)
  {registry : Registry} {sha : String}

def afterInvoke (registry : Registry) (sha : String) : Execution Code :=
  after (invoke py mtime registry sha payload wallSeconds) ⟨files, none⟩

/-- The code of the module that the invocation executes, if it executes one. -/
def executed (registry : Registry) (sha : String) : Option Code :=
  (afterInvoke py files mtime payload wallSeconds registry sha).ran

def loading (codePath : String) : Execution Code :=
  match py.loaderOf codePath, files codePath with
  | some loader, some bytes =>
    let module := moduleCode py files loader codePath bytes mtime
    ⟨module.2, module.1.toOption⟩
  | _, _ => ⟨files, none⟩

def Loads (codePath : String) (code : Code) : Prop :=
  ∃ loader bytes, py.loaderOf codePath = some loader ∧ files codePath = some bytes ∧
    (moduleCode py files loader codePath bytes mtime).1 = .ok code

theorem loading_ran_iff {codePath : String} {code : Code} :
    (loading py files mtime codePath).ran = some code ↔ Loads py files mtime codePath code := by
  unfold loading Loads
  rcases py.loaderOf codePath with _ | loader
  · simp
  · rcases files codePath with _ | bytes
    · simp
    · rcases module : (moduleCode py files loader codePath bytes mtime).1 with e | code'
      · simp [module, Except.toOption]
      · simp [module, Except.toOption]

theorem after_loadModule (sha codePath : String) :
    after (loadModule py sha codePath mtime) ⟨files, none⟩ = loading py files mtime codePath := by
  rw [after, loadModule, outcome_bind, outcome_get]
  dsimp only
  unfold loading
  rcases py.loaderOf codePath with _ | loader
  · rfl
  · rcases files codePath with _ | bytes
    · rfl
    · dsimp only
      rcases moduleCode py files loader codePath bytes mtime with ⟨e | code, left⟩
      · rfl
      · rcases execution : py.exec s!"tool_{sha}" code with e | run
        · simp only [outcome_bind, outcome_attempt_ok, execution]
          rfl
        · simp only [outcome_bind, outcome_attempt_ok, execution]
          rfl

theorem outcome_invoke_retired {rt : RegisteredTool} (found : registry sha = some rt)
    (retired : rt.status = .retired) :
    outcome (invoke py mtime registry sha payload wallSeconds) ⟨files, none⟩ =
      (.error (toolPolicyError s!"tool {sha} is retired"), ⟨files, none⟩) := by
  rw [invoke, outcome_bind]
  simp only [findTool, found, outcome_attempt_ok, retired, if_true, outcome_bind, outcome_get,
    outcome_throw]

theorem afterInvoke_registered {rt : RegisteredTool} (found : registry sha = some rt)
    (current : rt.status = .registered) :
    afterInvoke py files mtime payload wallSeconds registry sha =
      loading py files mtime rt.codePath := by
  have differs : ToolStatus.registered ≠ .retired := by decide
  rw [afterInvoke, after, invoke, outcome_bind]
  simp only [findTool, found, outcome_attempt_ok, current, outcome_bind, outcome_get]
  rw [if_neg differs]
  by_cases missing : files rt.codePath = none
  · rw [if_pos missing, outcome_throw, loading, missing]
    cases py.loaderOf rt.codePath <;> rfl
  · rw [if_neg missing, ← after_loadModule py files mtime rt.sha256, after, outcome_bind]
    rcases outcome (loadModule py rt.sha256 rt.codePath mtime) ⟨files, none⟩ with
      ⟨e | none | entry, ran⟩
    · rfl
    · rfl
    · rcases result : entry payload with e | output
      · simp only [result]
        rfl
      · simp only [result]
        rfl

theorem afterInvoke_refused (refused : ∀ rt, registry sha = some rt → rt.status = .retired) :
    afterInvoke py files mtime payload wallSeconds registry sha = ⟨files, none⟩ := by
  rcases found : registry sha with _ | rt
  · rw [afterInvoke, after, invoke, outcome_bind]
    simp only [findTool, found]
    rfl
  · rw [afterInvoke, after, outcome_invoke_retired py files mtime payload wallSeconds found
      (refused rt found)]

/- A current entry is executed as it imports, whatever comes of it. -/
theorem executed_iff {code : Code} :
    executed py files mtime payload wallSeconds registry sha = some code ↔
      ∃ rt, registry sha = some rt ∧ rt.status = .registered ∧
        Loads py files mtime rt.codePath code := by
  unfold executed
  constructor
  · intro ran
    by_contra other
    have refused : ∀ rt, registry sha = some rt → rt.status = .retired := by
      intro rt found
      by_contra current
      have registered := ToolStatus.registered_of_ne current
      rw [afterInvoke_registered py files mtime payload wallSeconds found registered,
        loading_ran_iff] at ran
      exact other ⟨rt, found, registered, ran⟩
    rw [afterInvoke_refused py files mtime payload wallSeconds refused] at ran
    cases ran
  · rintro ⟨rt, found, current, loads⟩
    rw [afterInvoke_registered py files mtime payload wallSeconds found current]
    exact (loading_ran_iff py files mtime).mpr loads

theorem invoke_registered {rt : RegisteredTool} (found : registry sha = some rt)
    (current : rt.status = .registered) {code : Code} (loads : Loads py files mtime rt.codePath code)
    {run : Payload → Except Exception Output}
    (execution : py.exec s!"tool_{rt.sha256}" code = .loaded (some run)) {output : Output}
    (returned : run payload = .ok output) :
    (outcome (invoke py mtime registry sha payload wallSeconds) ⟨files, none⟩).1 =
      .ok (output, wallSeconds) := by
  obtain ⟨loader, bytes, isLoader, file, code'⟩ := loads
  have load : (outcome (loadModule py rt.sha256 rt.codePath mtime) ⟨files, none⟩).1 =
      .ok (some run) := by
    rw [loadModule, outcome_bind, outcome_get]
    simp only [isLoader, file]
    rcases module : moduleCode py files loader rt.codePath bytes mtime with ⟨result, left⟩
    rw [module] at code'
    cases code'
    simp only [outcome_bind, outcome_attempt_ok, execution]
    rfl
  have status : ToolStatus.registered ≠ .retired := by decide
  rw [invoke, outcome_bind]
  simp only [findTool, found, outcome_attempt_ok, current, file, outcome_bind, outcome_get]
  rw [if_neg status, if_neg (Option.some_ne_none bytes), outcome_bind]
  rcases whole : outcome (loadModule py rt.sha256 rt.codePath mtime) ⟨files, none⟩ with ⟨result, t⟩
  rw [whole] at load
  cases load
  simp only [returned]
  rfl

end Invoke

end ToolRuntime
