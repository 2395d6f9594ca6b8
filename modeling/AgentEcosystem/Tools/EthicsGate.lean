import AgentEcosystem.Ethics.EthicsService
import AgentEcosystem.Tools.Retirement

/-!
Reviews and registrations in any order. The registry asks a tool of high risk for
the identifier of a verdict; whose verdict it is, and what it says, is up to
whoever attached it.
-/
namespace ToolRegistry
open AgentSchemas CodeBuilder EthicsService Raising Runs UnicodeText

structure Gate where
  reviews : Reviews
  registry : Registry

def newGate : Gate := ⟨newService, newRegistry⟩

inductive GateAction where
  | review (a : ReviewAction)
  | register (artifact : ToolArtifact) (buildRequest : BuildRequest) (now : Timestamp)

def Approves (reviews : Reviews) (artifactId verdictId : Uuid) : Prop :=
  ∃ (i : ℕ) (req : EthicsReviewRequest) (v : EthicsVerdict),
    reviews.tasks[i]? = some ⟨req, .done (.ok v)⟩ ∧ req.subjectType = .toolArtifact ∧
      req.subjectId = artifactId ∧ v.decision = .approve ∧ v.id = verdictId

def approving (artifactId verdictId : Uuid)
    (task : GuardedSection.Task EthicsReviewRequest ProviderCall ReviewResult) : Bool :=
  match task.phase with
  | .done (.ok v) => decide (task.request.subjectType = .toolArtifact ∧
      task.request.subjectId = artifactId ∧ v.decision = .approve ∧ v.id = verdictId)
  | _ => false

theorem approves_iff {reviews : Reviews} {artifactId verdictId : Uuid} :
    Approves reviews artifactId verdictId ↔
      reviews.tasks.any (approving artifactId verdictId) = true := by
  rw [List.any_eq_true]
  constructor
  · rintro ⟨i, req, v, task, approves⟩
    exact ⟨_, List.mem_of_getElem? task, decide_eq_true approves⟩
  · rintro ⟨⟨req, phase⟩, mem, approves⟩
    obtain ⟨i, task⟩ := List.getElem?_of_mem mem
    unfold approving at approves
    split at approves
    · next v ended =>
      obtain rfl : phase = .done (.ok v) := ended
      exact ⟨i, req, v, task, of_decide_eq_true approves⟩
    · cases approves

instance decidableApproves (reviews : Reviews) (artifactId verdictId : Uuid) :
    Decidable (Approves reviews artifactId verdictId) :=
  decidable_of_iff _ approves_iff.symm

/-- A registration of high risk comes with the identifier of an approving verdict
    that the service has returned for its tool. -/
def Attaches (g : Gate) : GateAction → Prop
  | .review _ => True
  | .register artifact buildRequest _ =>
    Admitted artifact buildRequest → buildRequest.riskTier = .high →
      ∃ verdictId, artifact.ethicsVerdictId = some verdictId ∧
        Approves g.reviews artifact.id verdictId

def GateAction.Spares (sha : String) : GateAction → Prop
  | .review _ => True
  | .register artifact buildRequest now =>
    (RegistryCall.register artifact buildRequest now).Spares sha

section Interpreted
variable (I : EthicsService.Interpreter)

def gateStep (g : Gate) : GateAction → Gate
  | .review a => { g with reviews := GuardedSection.step (review I) g.reviews a }
  | .register artifact buildRequest now =>
    { g with registry := callStep g.registry (.register artifact buildRequest now) }

abbrev gate (as : List GateAction) : Gate := run (gateStep I) newGate as

structure Registration (as : List GateAction) (sha : String) (rt : RegisteredTool) where
  before : List GateAction
  artifact : ToolArtifact
  buildRequest : BuildRequest
  now : Timestamp
  later : List GateAction
  split : as = before ++ .register artifact buildRequest now :: later
  filed : artifact.sha256 = sha
  admitted : Admitted artifact buildRequest
  entry : rt = entryOf artifact buildRequest now
  untouched : ∀ a ∈ later, a.Spares sha

structure Shows {as : List GateAction} {sha : String} {rt : RegisteredTool}
    (r : Registration as sha rt) (verdictId : Uuid) : Prop where
  attached : r.artifact.ethicsVerdictId = some verdictId
  shown : rt.ethicsVerdictId = some verdictId.str

/-- Every entry of high risk shows a verdict that approved its tool before. -/
def Gated (as : List GateAction) : Prop :=
  ∀ sha rt, (gate I as).registry sha = some rt → rt.riskTier = .high →
    ∃ (r : Registration as sha rt) (verdictId : Uuid), Shows r verdictId ∧
      Approves (gate I r.before).reviews r.artifact.id verdictId

theorem gateStep_spares {sha : String} {a : GateAction} (spares : a.Spares sha) (g : Gate) :
    (gateStep I g a).registry sha = g.registry sha := by
  cases a with
  | review a => rfl
  | register artifact buildRequest now => exact callStep_register_other spares g.registry

theorem entry_registration (as : List GateAction) {sha : String} {rt : RegisteredTool}
    (found : (gate I as).registry sha = some rt) : Nonempty (Registration as sha rt) := by
  induction as using List.reverseRecOn with
  | nil => cases found
  | append_singleton as a ih =>
    rw [gate, run_append, run_cons, run_nil] at found
    by_cases spares : a.Spares sha
    · rw [gateStep_spares I spares] at found
      obtain ⟨r⟩ := ih found
      have untouched : ∀ b ∈ r.later ++ [a], b.Spares sha := by
        intro b mem
        rcases List.mem_append.mp mem with earlier | last
        · exact r.untouched b earlier
        · rw [List.mem_singleton.mp last]
          exact spares
      have split : as ++ [a] =
          r.before ++ .register r.artifact r.buildRequest r.now :: (r.later ++ [a]) := by
        conv_lhs => rw [r.split]
        simp
      exact ⟨⟨r.before, r.artifact, r.buildRequest, r.now, r.later ++ [a], split, r.filed,
        r.admitted, r.entry, untouched⟩⟩
    · cases a with
      | review a => exact absurd trivial spares
      | register artifact buildRequest now =>
        simp only [GateAction.Spares, RegistryCall.Spares, Classical.not_imp, not_not] at spares
        obtain ⟨rfl, admitted⟩ := spares
        have new := callStep_registers admitted now (gate I as).registry
        cases new.symm.trans found
        exact ⟨⟨as, artifact, buildRequest, now, [], rfl, rfl, admitted, rfl, by simp⟩⟩

/- A registration that ends the run is the one that made its entry. -/
theorem registration_last {as : List GateAction} {artifact : ToolArtifact}
    {buildRequest : BuildRequest} {now : Timestamp} (admitted : Admitted artifact buildRequest)
    {rt : RegisteredTool}
    (r : Registration (as ++ [.register artifact buildRequest now]) artifact.sha256 rt) :
    r.before = as ∧ r.artifact = artifact := by
  rcases List.eq_nil_or_concat r.later with none | ⟨later, b, some⟩
  · have split := r.split
    rw [none] at split
    obtain ⟨before, same⟩ := List.append_inj' split rfl
    injection same with same
    injection same with artifact_eq
    exact ⟨before.symm, artifact_eq.symm⟩
  · have split := r.split
    rw [some, List.concat_eq_append, ← List.cons_append, ← List.append_assoc] at split
    obtain ⟨_, same⟩ := List.append_inj' split rfl
    injection same with same
    have spares := r.untouched b (by simp [some])
    rw [← same] at spares
    exact absurd admitted (spares rfl)

theorem registration_shows {as : List GateAction} {sha : String} {rt : RegisteredTool}
    (r : Registration as sha rt) (high : rt.riskTier = .high) : ∃ verdictId, Shows r verdictId := by
  have entry := r.entry
  rw [entry] at high
  obtain ⟨verdictId, attached⟩ := Option.ne_none_iff_exists'.mp (r.admitted.reviewed high)
  refine ⟨verdictId, attached, ?_⟩
  rw [entry, entryOf, attached]
  rfl

/-- On every run, an entry of high risk shows the identifier that its artifact was
    registered with; and it is that of a verdict that approved the tool before, at
    every point of the run, exactly when such identifiers are what is attached. -/
theorem high_risk_gated_iff (as : List GateAction) :
    (∀ sha rt, (gate I as).registry sha = some rt → rt.riskTier = .high →
      ∃ (r : Registration as sha rt) (verdictId : Uuid), Shows r verdictId) ∧
    ((∀ before, before <+: as → Gated I before) ↔ Meets (gateStep I) Attaches newGate as) := by
  constructor
  · intro sha rt found high
    obtain ⟨r⟩ := entry_registration I as found
    exact ⟨r, registration_shows r high⟩
  rw [meets_iff_each]
  constructor
  · rintro gated before a later rfl
    cases a with
    | review a => trivial
    | register artifact buildRequest now =>
      intro admitted high
      have found := callStep_registers admitted now (gate I before).registry
      have here : (gate I (before ++ [.register artifact buildRequest now])).registry
          artifact.sha256 = some (entryOf artifact buildRequest now) := by
        rw [gate, run_append, run_cons, run_nil]
        exact found
      have isPrefix : before ++ [.register artifact buildRequest now] <+:
          before ++ .register artifact buildRequest now :: later := ⟨later, by simp⟩
      obtain ⟨r, verdictId, shows_, approves⟩ := gated _ isPrefix _ _ here high
      obtain ⟨same, sameArtifact⟩ := registration_last admitted r
      rw [same, sameArtifact] at approves
      exact ⟨verdictId, sameArtifact ▸ shows_.attached, approves⟩
  · rintro attaches before ⟨rest, rfl⟩ sha rt found high
    obtain ⟨r⟩ := entry_registration I before found
    obtain ⟨verdictId, shows_⟩ := registration_shows r high
    have requestHigh : r.buildRequest.riskTier = .high :=
      (congrArg RegisteredTool.riskTier r.entry).symm.trans high
    have split : before ++ rest = r.before ++ .register r.artifact r.buildRequest r.now ::
        (r.later ++ rest) := by
      conv_lhs => rw [r.split]
      simp
    obtain ⟨attachedId, attached, approves⟩ := attaches _ _ _ split r.admitted requestHigh
    cases attached.symm.trans shows_.attached
    exact ⟨r, _, shows_, approves⟩

end Interpreted

def plainInterpreter : EthicsService.Interpreter where
  sha256 := runnableSha256
  jsonDepth := 1000
  str
    | .str s => s
    | _ => []
  str_str _ := rfl

def attachedArtifact : ToolArtifact := { badgeArtifact with ethicsVerdictId := some ⟨0xe7⟩ }

def attachedRegistration : GateAction :=
  .register attachedArtifact highRequest badgeArtifact.signedAt

theorem attached_admitted : Admitted attachedArtifact highRequest := ⟨rfl, nofun⟩

def approvedReview : List GateAction :=
  [.review (.arrive ⟨⟨0x3e⟩, .toolArtifact, attachedArtifact.id, "\x7b\x7d",
      badgeArtifact.signedAt⟩),
    .review (.acquire 0 ⟨some [], some []⟩),
    .review (.resume 0 ⟨.ok (text
      "\x7b\"decision\":\"approve\",\"rationale\":\"The tool keeps no address.\"\x7d"),
      ⟨0xe7⟩, badgeArtifact.signedAt⟩)]

theorem high_risk_gated_reviewed :
    Gated plainInterpreter (approvedReview ++ [attachedRegistration]) := by
  have approved : Approves (gate plainInterpreter approvedReview).reviews attachedArtifact.id
      ⟨0xe7⟩ := by decide +kernel
  have attaches : Meets (gateStep plainInterpreter) Attaches newGate
      (approvedReview ++ [attachedRegistration]) := by
    rw [meets_append]
    exact ⟨⟨trivial, trivial, trivial, trivial⟩, fun _ _ => ⟨⟨0xe7⟩, rfl, approved⟩, trivial⟩
  exact (high_risk_gated_iff plainInterpreter _).2.mpr attaches _ List.prefix_rfl

/-- The same identifier registers the tool without any review. -/
theorem unreviewed_tool_registers : ¬ Gated plainInterpreter [attachedRegistration] := by
  intro gated
  have found : (gate plainInterpreter [attachedRegistration]).registry attachedArtifact.sha256 =
      some (entryOf attachedArtifact highRequest badgeArtifact.signedAt) :=
    callStep_registers attached_admitted badgeArtifact.signedAt newRegistry
  obtain ⟨r, verdictId, _, approves⟩ := gated _ _ found rfl
  have first : ∀ {rt : RegisteredTool}
      (r : Registration ([] ++ [attachedRegistration]) attachedArtifact.sha256 rt),
      r.before = [] := fun r => (registration_last attached_admitted r).1
  rw [first r] at approves
  obtain ⟨i, req, v, returned, _⟩ := approves
  cases returned

end ToolRegistry
