import AgentEcosystem.Ethics.SingleFlight
import AgentEcosystem.Ethics.VerdictJson

/-!
The prompt file while other processes write to it. A review reads the file twice,
once for the provider and once for the hash, and both reads agree as long as nobody
writes in between.
-/
namespace EthicsService
open AgentSchemas GuardedSection Runs UnicodeText

structure Prompted where
  reviews : Reviews
  file : Option Bytes

/-- `write` is another process. Between the two reads of an `acquire` the file is written
    as often as the list says. -/
inductive PromptAction where
  | write (content : Option Bytes)
  | arrive (req : EthicsReviewRequest)
  | acquire (i : ℕ) (between : List (Option Bytes))
  | resume (i : ℕ) (reply : Reply)
  | cancel (i : ℕ)

section Prompts
variable (I : Interpreter)

def promptStep (s : Prompted) : PromptAction → Prompted
  | .write content => ⟨s.reviews, content⟩
  | .arrive req => ⟨step (review I) s.reviews (.arrive req), s.file⟩
  | .acquire i between =>
    let later := between.getLastD s.file
    ⟨step (review I) s.reviews (.acquire i ⟨s.file, later⟩), later⟩
  | .resume i reply => ⟨step (review I) s.reviews (.resume i reply), s.file⟩
  | .cancel i => ⟨step (review I) s.reviews (.cancel i), s.file⟩

abbrev servePrompted (file : Option Bytes) (as : List PromptAction) : Prompted :=
  run (promptStep I) ⟨newService, file⟩ as

def Reads (s : Prompted) (i : ℕ) : Prop :=
  s.reviews.holder = none ∧ ∃ req, s.reviews.tasks[i]? = some ⟨req, .waiting⟩ ∧
    cachedReject s.reviews.shared (cacheKey req) = none

/-- Nobody changes what the file holds between the two reads of a review. -/
def Undisturbed (s : Prompted) (a : PromptAction) : Prop :=
  ∀ i between, a = .acquire i between → Reads s i → between.getLastD s.file = s.file

def ReadFrom (file : Option Bytes) (as : List PromptAction) (i : ℕ) (req : EthicsReviewRequest)
    (call : ProviderCall) (bytes : Bytes) : Prop :=
  ∃ before between after, as = before ++ .acquire i between :: after ∧
    Reads (servePrompted I file before) i ∧
    (servePrompted I file (before ++ [.acquire i between])).reviews.tasks[i]? =
      some ⟨req, .inside call⟩ ∧
    (servePrompted I file before).file = some bytes ∧
    (decodeStrict bytes).map universalNewlines = some call.prompt

/-- Every verdict that comes from a provider call carries the hash of the bytes from which
    the call's prompt was read. -/
def HashesItsPrompt (file : Option Bytes) (as : List PromptAction) : Prop :=
  ∀ before i reply, before ++ [.resume i reply] <+: as → ∀ req call v,
    (servePrompted I file before).reviews.tasks[i]? = some ⟨req, .inside call⟩ →
    (servePrompted I file (before ++ [.resume i reply])).reviews.tasks[i]? =
      some ⟨req, .done (.ok v)⟩ →
    ∃ bytes, ReadFrom I file before i req call bytes ∧ v.rulesetHash = I.sha256.hexdigest bytes

end Prompts

section Drift
variable {I : Interpreter} {file : Option Bytes} {req : EthicsReviewRequest}

theorem beginReview_reads {cache : Cache} {reads : PromptReads}
    {call : ProviderCall} (begun : beginReview I cache req reads = .inl call) :
    readFrozenPrompt reads = .ok call.prompt ∧
      frozenPromptHash I reads = .ok call.rulesetHash := by
  unfold beginReview at begun
  split at begun
  · cases begun
  · split at begun
    · next prompt hash =>
      cases begun
      exact ⟨prompt, hash⟩
    · cases begun
    · cases begun

theorem prompt_bytes {reads : PromptReads} {prompt : Text}
    (read : readFrozenPrompt reads = .ok prompt) : ∃ bytes, reads.text = some bytes ∧
      (decodeStrict bytes).map universalNewlines = some prompt := by
  unfold readFrozenPrompt at read
  split at read
  · cases read
  · next bytes first =>
    split at read
    · next decoded =>
      cases read
      exact ⟨bytes, first, by rw [decoded]; rfl⟩
    · cases read

theorem hash_bytes {reads : PromptReads} {rulesetHash : String}
    (read : frozenPromptHash I reads = .ok rulesetHash) :
    ∃ bytes, reads.bytes = some bytes ∧ rulesetHash = I.sha256.hexdigest bytes := by
  unfold frozenPromptHash at read
  split at read
  · cases read
  · next bytes second =>
    cases read
    exact ⟨bytes, second, rfl⟩

theorem conclude_hash {call : ProviderCall} {reply : Reply} {v : EthicsVerdict}
    (concluded : conclude I req call reply = .ok v) : v.rulesetHash = call.rulesetHash := by
  obtain ⟨response, _, concluded⟩ := Raising.ok_of_bind concluded
  obtain ⟨⟨decision, rationale⟩, _, concluded⟩ := Raising.ok_of_bind concluded
  simp only [EthicsVerdict.validate] at concluded
  split at concluded
  · cases concluded
    rfl
  · cases concluded

theorem endReview_ok {cache : Cache} {call : ProviderCall} {reply : Reply} {v : EthicsVerdict}
    (ended : (endReview I cache req call reply).2 = .ok v) : conclude I req call reply = .ok v := by
  unfold endReview at ended
  split at ended
  · next concluded => exact concluded.trans ended
  · cases ended

theorem resume_returns {s : Reviews} {i : ℕ} {reply : Reply} {call : ProviderCall}
    {v : EthicsVerdict} (inside : s.tasks[i]? = some ⟨req, .inside call⟩)
    (returned : (step (review I) s (.resume i reply)).tasks[i]? = some ⟨req, .done (.ok v)⟩) :
    conclude I req call reply = .ok v := by
  have before : s.tasks[i]? ≠ some ⟨req, .done (.ok v)⟩ := by
    rw [inside]
    nofun
  generalize result_is : (Except.ok v : ReviewResult) = result at returned before
  have yields := yields_of_done (step_goes (review I) s (.resume i reply)) returned before
  cases yields with
  | left here =>
    rw [inside] at here
    cases here
    exact (endReview_ok result_is.symm).trans result_is

/-- Where a review starts a provider call, undisturbed, one content of the file made both
    the prompt and the hash. -/
theorem starts_call {s : Prompted} {a : PromptAction} {i : ℕ} {call : ProviderCall}
    (fine : Undisturbed s a)
    (now : (promptStep I s a).reviews.tasks[i]? = some ⟨req, .inside call⟩)
    (before : s.reviews.tasks[i]? ≠ some ⟨req, .inside call⟩) :
    ∃ between bytes, a = .acquire i between ∧ Reads s i ∧ s.file = some bytes ∧
      (decodeStrict bytes).map universalNewlines = some call.prompt ∧
      call.rulesetHash = I.sha256.hexdigest bytes := by
  have entered : ∀ b, (step (review I) s.reviews b).tasks[i]? = some ⟨req, .inside call⟩ →
      ∃ reads, b = .acquire i reads ∧ Reads s i ∧
        beginReview I s.reviews.shared req reads = .inl call := by
    intro b now
    obtain ⟨reads, same, free, waiting, entered⟩ :=
      entered_of_inside (step_goes (review I) s.reviews b) now before
    exact ⟨reads, same, ⟨free, req, waiting, beginReview_call entered⟩, entered⟩
  cases a with
  | write content => exact absurd now before
  | arrive request =>
    obtain ⟨_, same, _⟩ := entered _ now
    cases same
  | acquire j between =>
    obtain ⟨_, same, reading, begun⟩ := entered _ now
    cases same
    obtain ⟨prompt, hash⟩ := beginReview_reads begun
    obtain ⟨bytes, first, decoded⟩ := prompt_bytes prompt
    obtain ⟨bytes', second, hashed⟩ := hash_bytes hash
    have unchanged : some bytes' = some bytes :=
      second.symm.trans ((fine i between rfl reading).trans first)
    cases unchanged
    exact ⟨between, bytes, rfl, reading, first, decoded, hashed⟩
  | resume j reply =>
    obtain ⟨_, same, _⟩ := entered _ now
    cases same
  | cancel j =>
    obtain ⟨_, same, _⟩ := entered _ now
    cases same

theorem readFrom_append {as : List PromptAction} {i : ℕ} {call : ProviderCall} {bytes : Bytes}
    (h : ReadFrom I file as i req call bytes) (later : List PromptAction) :
    ReadFrom I file (as ++ later) i req call bytes := by
  obtain ⟨before, between, after, rfl, rest⟩ := h
  refine ⟨before, between, after ++ later, ?_, rest⟩
  rw [List.append_assoc, List.cons_append]

theorem calls_read {as : List PromptAction}
    (fine : Meets (promptStep I) Undisturbed ⟨newService, file⟩ as) {i : ℕ} {call : ProviderCall}
    (inside : (servePrompted I file as).reviews.tasks[i]? = some ⟨req, .inside call⟩) :
    ∃ bytes, ReadFrom I file as i req call bytes ∧
      call.rulesetHash = I.sha256.hexdigest bytes := by
  induction as using List.reverseRecOn with
  | nil => cases inside
  | append_singleton as a ih =>
    obtain ⟨meets, last⟩ := (meets_append _ as [a]).mp fine
    by_cases old : (servePrompted I file as).reviews.tasks[i]? = some ⟨req, .inside call⟩
    · obtain ⟨bytes, read, hashed⟩ := ih meets old
      exact ⟨bytes, readFrom_append read [a], hashed⟩
    · have now := inside
      rw [servePrompted, run_append, run_cons, run_nil] at now
      obtain ⟨between, bytes, rfl, reading, first, decoded, hashed⟩ := starts_call last.1 now old
      exact ⟨bytes, ⟨as, between, [], rfl, reading, inside, first, decoded⟩, hashed⟩

/-- While nobody changes the prompt file between the two reads of a review, every verdict
    that a provider call returns carries the hash of the bytes the call's prompt was read
    from, on every schedule of reviews and writes. -/
theorem hashesItsPrompt_of_undisturbed (I : Interpreter) (file : Option Bytes)
    (as : List PromptAction)
    (fine : Meets (promptStep I) Undisturbed ⟨newService, file⟩ as) :
    HashesItsPrompt I file as := by
  rintro before i reply ⟨later, rfl⟩ req call v inside returned
  rw [List.append_assoc, meets_append] at fine
  obtain ⟨bytes, read, hashed⟩ := calls_read fine.1 inside
  rw [servePrompted, run_append, run_cons, run_nil] at returned
  have concluded := conclude_hash (resume_returns inside returned)
  exact ⟨bytes, read, concluded.trans hashed⟩

end Drift

def proposalReview : EthicsReviewRequest :=
  ⟨⟨1⟩, .verticalProposal, ⟨2⟩, "\x7b\x7d", ⟨"2026-01-01T00:00:00Z"⟩⟩

def approvingReply : Reply :=
  ⟨.ok (text "\x7b\"decision\":\"approve\",\"rationale\":\"\"\x7d"), ⟨3⟩, ⟨"2026-01-01T00:00:01Z"⟩⟩

def reviewed (between : List (Option Bytes)) : List PromptAction :=
  [.arrive proposalReview, .acquire 0 between, .resume 0 approvingReply]

theorem draft_withdrawn : HashesItsPrompt runnableInterpreter (some firstPrompt)
    (reviewed [some secondPrompt, some firstPrompt]) := by
  apply hashesItsPrompt_of_undisturbed
  refine ⟨nofun, ?_, nofun, trivial⟩
  rintro i between same _
  cases same
  rfl

def mixedCall : ProviderCall := ⟨text "v1\n", promptDigest secondPrompt⟩

/-- The provider judges by the first prompt, and the verdict names the second. -/
theorem prompt_replaced_between_reads : ¬ HashesItsPrompt runnableInterpreter (some firstPrompt)
    (reviewed [some secondPrompt]) := by
  intro hashes
  have answered : (conclude runnableInterpreter proposalReview mixedCall approvingReply).isOk =
      true := by decide +kernel
  rcases concluded : conclude runnableInterpreter proposalReview mixedCall approvingReply with _ | v
  · rw [concluded] at answered
    cases answered
  · have returned : (servePrompted runnableInterpreter (some firstPrompt)
        (reviewed [some secondPrompt])).reviews.tasks[0]? =
        some ⟨proposalReview, .done (.ok v)⟩ := by
      have ended : (endReview runnableInterpreter (fun _ => none) proposalReview mixedCall
          approvingReply).2 = .ok v := by rw [endReview, concluded]
      rw [← ended]
      rfl
    obtain ⟨bytes, ⟨before, between, after, split, _, _, file, _⟩, hashed⟩ :=
      hashes [.arrive proposalReview, .acquire 0 [some secondPrompt]] 0 approvingReply
        List.prefix_rfl proposalReview mixedCall v rfl returned
    -- the file still held the first prompt when the review took the lock
    have first : bytes = firstPrompt := by
      rcases before with _ | ⟨a, _ | ⟨b, _ | ⟨c, before⟩⟩⟩
      · cases split
      · cases split
        exact (Option.some.inj file).symm
      · cases split
      · cases split
    rw [first, conclude_hash concluded] at hashed
    exact absurd hashed (by decide +kernel)

end EthicsService
