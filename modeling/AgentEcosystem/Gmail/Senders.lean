import AgentEcosystem.Gmail.PushWebhook

/-!
Who a push takes commands from. The sender of a message is never looked at, so
other senders command nothing only as long as none of them sends a command.
-/
namespace PushWebhook
open AgentSchemas JsonText OperatorParser Raising UnicodeText
variable {E : Type} (host : Host)

def operatorMessages (results : List ParseResult) : List OperatorMessage :=
  results.filterMap fun
    | .operatorMessage m => some m
    | .formLetter _ => none

def SameFrom (sender : Text) (inbox inbox' : List GmailMessage) : Prop :=
  inbox.filter (·.fromAddr = sender) = inbox'.filter (·.fromAddr = sender)

instance (sender : Text) (inbox inbox' : List GmailMessage) :
    Decidable (SameFrom sender inbox inbox') := inferInstanceAs (Decidable (_ = _))

def OthersRejected (sender : Text) (inbox : List GmailMessage) : Prop :=
  ∀ m ∈ inbox, m.fromAddr ≠ sender → ∃ f, host.parse m = .ok (.formLetter f)

def readdressed (sender : GmailMessage → Text) (transport : GmailTransport E) :
    GmailTransport E where
  listUnread := transport.listUnread.map (List.map fun m => { m with fromAddr := sender m })
  markRead := transport.markRead

theorem sender_ignored (sender : GmailMessage → Text) (transport : GmailTransport E)
    (envelope : Json) :
    handlePush host (readdressed sender transport) envelope = handlePush host transport envelope := by
  unfold handlePush
  cases listed : transport.listUnread with
  | error e =>
    simp only [readdressed, listed, Except.map]
    rfl
  | ok unread =>
    simp only [readdressed, listed, Except.map, attempt, pure_bind, List.foldlM_map]
    rfl

def commandOf (m : GmailMessage) : Option OperatorMessage :=
  match host.parse m with
  | .ok (.operatorMessage command) => some command
  | _ => none

variable {host}

theorem operatorMessages_eq {inbox : List GmailMessage} {results : List ParseResult}
    (parsed : inbox.map host.parse = results.map .ok) :
    operatorMessages results = inbox.filterMap (commandOf host) := by
  induction inbox generalizing results with
  | nil =>
    cases results with
    | nil => rfl
    | cons => cases parsed
  | cons m inbox ih =>
    cases results with
    | nil => cases parsed
    | cons result results =>
      simp only [List.map_cons, List.cons.injEq] at parsed
      have later := ih parsed.2
      unfold operatorMessages at later ⊢
      cases result <;> simp [commandOf, parsed.1, later]

theorem commands_of_sender {sender : Text} {inbox : List GmailMessage}
    (rejected : OthersRejected host sender inbox) :
    inbox.filterMap (commandOf host) =
      (inbox.filter (·.fromAddr = sender)).filterMap (commandOf host) := by
  rw [List.filterMap_filter]
  apply List.filterMap_congr
  intro m mem
  by_cases own : m.fromAddr = sender
  · simp [own]
  · obtain ⟨f, letter⟩ := rejected m mem own
    simp [own, commandOf, letter]

theorem returns_iff {transport : GmailTransport E} {inbox : List GmailMessage} {envelope : Json}
    (listed : transport.listUnread = .ok inbox)
    (marks : ∀ n id, transport.markRead n id = .done) :
    (outcome (handlePush host transport envelope) {}).1.isOk = true ↔
      (∃ push, decodePush host.maxDepth envelope = .ok push) ∧
        ∀ m ∈ inbox, ∃ result, host.parse m = .ok result := by
  have spec := handlePush_spec host transport envelope
  rcases run : outcome (handlePush host transport envelope) {} with ⟨e | results, s⟩
  · simp only [Except.isOk, Except.toBool, false_iff, reduceCtorEq]
    rintro ⟨⟨push, decoded⟩, all⟩
    rcases ensures_of_raises spec run with ⟨_, e, failed⟩ | ⟨_, e, failed⟩ |
      ⟨_, done, m, rest, listed', stopped⟩
    · rw [decoded] at failed
      cases failed
    · rw [listed] at failed
      cases failed
    · rw [listed] at listed'
      cases listed'
      exact stopped.raised ⟨all m (by simp), marks _ _⟩
  · obtain ⟨decoded, unread, listed', progress⟩ := ensures_of_returns spec run
    rw [listed] at listed'
    cases listed'
    simp only [Except.isOk, Except.toBool, true_iff]
    refine ⟨decoded, ?_⟩
    intro m mem
    obtain ⟨n, found⟩ := List.mem_iff_getElem?.mp mem
    exact (progress.handled n m found).1

theorem parsed_of_sender {sender : Text} {inbox : List GmailMessage}
    (rejected : OthersRejected host sender inbox) :
    (∀ m ∈ inbox, ∃ result, host.parse m = .ok result) ↔
      ∀ m ∈ inbox.filter (·.fromAddr = sender), ∃ result, host.parse m = .ok result := by
  constructor
  · intro all m mem
    exact all m (List.mem_filter.mp mem).1
  · intro own m mem
    by_cases from_sender : m.fromAddr = sender
    · exact own m (List.mem_filter.mpr ⟨mem, by simpa using from_sender⟩)
    · obtain ⟨f, letter⟩ := rejected m mem from_sender
      exact ⟨_, letter⟩

variable (host)

/-- Two inboxes with the same messages of the operator, where no other sender sends a
    command, give the same commands. -/
theorem others_command_nothing (operatorEmail : Text) (envelope : Json)
    (transport transport' : GmailTransport E) {inbox inbox' : List GmailMessage}
    (listed : transport.listUnread = .ok inbox) (listed' : transport'.listUnread = .ok inbox')
    (same : SameFrom operatorEmail inbox inbox')
    (rejected : OthersRejected host operatorEmail inbox)
    (rejected' : OthersRejected host operatorEmail inbox') :
    (∀ results results',
      (outcome (handlePush host transport envelope) {}).1 = .ok results →
      (outcome (handlePush host transport' envelope) {}).1 = .ok results' →
      operatorMessages results = operatorMessages results') ∧
    ((∀ n id, transport.markRead n id = .done) → (∀ n id, transport'.markRead n id = .done) →
      ((outcome (handlePush host transport envelope) {}).1.isOk = true ↔
        (outcome (handlePush host transport' envelope) {}).1.isOk = true)) := by
  constructor
  · intro results results' run run'
    obtain ⟨_, unread, there, progress⟩ :=
      ensures_of_ok (handlePush_spec host transport envelope) run
    obtain ⟨_, unread', there', progress'⟩ :=
      ensures_of_ok (handlePush_spec host transport' envelope) run'
    rw [listed] at there
    rw [listed'] at there'
    cases there
    cases there'
    rw [operatorMessages_eq progress.results, operatorMessages_eq progress'.results,
      commands_of_sender rejected, commands_of_sender rejected', same]
  · intro marks marks'
    rw [returns_iff listed marks, returns_iff listed' marks', parsed_of_sender rejected,
      parsed_of_sender rejected', same]

def operatorEmail : Text := text "operator@example.com"

def continueMail : GmailMessage := ⟨text "g1", text "CONTINUE", [], operatorEmail⟩

def strangerMail (subject : String) : GmailMessage :=
  ⟨text "g2", text subject, [], text "stranger@example.net"⟩

def workingTransport (inbox : List GmailMessage) : GmailTransport Unit where
  listUnread := .ok inbox
  markRead _ _ := .done

def continueResult : ParseResult :=
  .operatorMessage
    { action := .«continue»,
      rawSha256 := "628db0c7598820b101769164f5228a5096e4f531ee71ee7e5e31d734dd38fe64" }

def killResult : ParseResult :=
  .operatorMessage
    { action := .killAll,
      rawSha256 := "ac8c77faa6360df937ea9df216f2b42433a11810bc5d82c53ad4e66b03801e28" }

def nonsenseResult : ParseResult :=
  .formLetter
    { reason := text "unknown_verb:NONSENSE",
      rawSha256 := "547af54b79fda74eda8b126055f0f72780fa353c411cc7ec055fdbfaa088fcf9" }

def returned (inbox : List GmailMessage) : Except (PushError Unit) (List ParseResult) :=
  (outcome (handlePush pushHost (workingTransport inbox) emptyPush) {}).1

theorem returned_continue : returned [continueMail] = .ok [continueResult] := by decide +kernel

theorem nonsense_commands_nothing :
    returned [continueMail] = .ok [continueResult] ∧
      returned [strangerMail "NONSENSE here", continueMail] =
        .ok [nonsenseResult, continueResult] ∧
      operatorMessages [continueResult] = operatorMessages [nonsenseResult, continueResult] := by
  have run : returned [strangerMail "NONSENSE here", continueMail] =
      .ok [nonsenseResult, continueResult] := by decide +kernel
  have rejected : OthersRejected pushHost operatorEmail [continueMail] := by
    intro m mem other
    rw [List.mem_singleton.mp mem] at other
    exact absurd rfl other
  have rejected' : OthersRejected pushHost operatorEmail
      [strangerMail "NONSENSE here", continueMail] := by
    intro m mem other
    rcases List.mem_cons.mp mem with rfl | own
    · exact ⟨_, (by decide +kernel : pushHost.parse _ = .ok nonsenseResult)⟩
    · exact rejected m own other
  have same := (others_command_nothing pushHost operatorEmail emptyPush
    (workingTransport [continueMail])
    (workingTransport [strangerMail "NONSENSE here", continueMail]) rfl rfl (by decide +kernel)
    rejected rejected').1
  exact ⟨returned_continue, run, same _ _ returned_continue run⟩

/-- Mail from anybody that says so kills every child. -/
theorem stranger_kills_all :
    SameFrom operatorEmail [continueMail] [continueMail, strangerMail "KILL ALL"] ∧
      returned [continueMail] = .ok [continueResult] ∧
      returned [continueMail, strangerMail "KILL ALL"] = .ok [continueResult, killResult] ∧
      operatorMessages [continueResult] ≠ operatorMessages [continueResult, killResult] := by
  have run : returned [continueMail, strangerMail "KILL ALL"] =
      .ok [continueResult, killResult] := by decide +kernel
  exact ⟨by decide +kernel, returned_continue, run, by decide⟩

end PushWebhook
