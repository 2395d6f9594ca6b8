import AgentEcosystem.Gmail.PushWebhook

/-!
What becomes of the results when a push fails. They are kept in a list that only a
push that handles every message returns.
-/
namespace PushWebhook
open AgentSchemas JsonText OperatorParser Raising UnicodeText
variable {E : Type} (host : Host) (transport : GmailTransport E) (envelope : Json)

/-- Every message that was marked as read has its result among those returned, and
    nothing was marked by a push that returns none. -/
def NoneLost : Prop :=
  ∀ unread, transport.listUnread = .ok unread →
    match outcome (handlePush host transport envelope) {} with
    | (.ok results, s) => ∀ m ∈ unread, m.id ∈ s.read → ∃ r ∈ results, host.parse m = .ok r
    | (.error _, s) => s.read = []

/-- Every message is handled, or it is the first that raises, and that unmarked. -/
def FailsOnlyFirst (unread : List GmailMessage) : Prop :=
  AllHandled host transport unread ∨
    ∃ m rest, unread = m :: rest ∧ Unmarked host transport 0 m

variable {host transport}

theorem Stopped.read_iff {done : List GmailMessage} {m : GmailMessage} {s : Mailbox}
    (stopped : Stopped host transport done m s) (rest : List GmailMessage) :
    s.read = [] ↔ FailsOnlyFirst host transport (done ++ m :: rest) := by
  have notAll : ¬ AllHandled host transport (done ++ m :: rest) := by
    intro all
    exact stopped.raised (all done.length m (by simp))
  constructor
  · intro none
    rcases stopped.read with ⟨unmarked, read⟩ | ⟨_, read⟩
    · rw [none, eq_comm, List.map_eq_nil_iff] at read
      subst read
      exact .inr ⟨m, rest, rfl, unmarked⟩
    · rw [none] at read
      simp at read
  · rintro (all | ⟨first, rest', whole, unmarked⟩)
    · exact absurd all notAll
    · cases done with
      | nil =>
        cases whole
        rcases stopped.read with ⟨_, read⟩ | ⟨marked, _⟩
        · exact read
        · exact absurd unmarked marked
      | cons head done =>
        cases whole
        exact absurd (stopped.handled 0 _ rfl) (not_handled_of_unmarked host transport unmarked)

variable (host transport)

/-- No result is lost exactly when every message is handled or the first one raises an
    exception before it is marked. -/
theorem none_lost_iff :
    NoneLost host transport envelope ↔
      ∀ push unread, decodePush host.maxDepth envelope = .ok push →
        transport.listUnread = .ok unread → FailsOnlyFirst host transport unread := by
  have spec := handlePush_spec host transport envelope
  unfold NoneLost
  rcases run : outcome (handlePush host transport envelope) {} with ⟨e | results, s⟩
  · rcases ensures_of_raises spec run with ⟨rfl, e, failed⟩ | ⟨rfl, e, failed⟩ |
      ⟨⟨push, decoded⟩, done, m, rest, listed, stopped⟩
    · simp [failed]
    · simp [failed]
    · have iff := stopped.read_iff rest
      simp [decoded, listed, iff]
  · obtain ⟨_, unread, listed, progress⟩ := ensures_of_returns spec run
    constructor
    · intro _ push unread' _ listed'
      rw [listed] at listed'
      cases listed'
      exact .inl progress.handled
    · intro _ unread' listed' m mem _
      rw [listed] at listed'
      cases listed'
      have result := List.mem_map_of_mem (f := host.parse) mem
      rw [progress.results, List.mem_map] at result
      obtain ⟨r, inside, parsed⟩ := result
      exact ⟨r, inside, parsed.symm⟩

def twoCommands : List GmailMessage :=
  [⟨text "g1", text "KILL ALL", [], text "operator@example.com"⟩,
    ⟨text "g2", text "CONTINUE", [], text "operator@example.com"⟩]

def failingTransport : GmailTransport String where
  listUnread := .ok twoCommands
  markRead n _ := if n = 1 then .raised "503" false else .done

/-- The first message, which kills every child, is marked as read and its result lost. -/
theorem kill_all_lost :
    (decodePush pushHost.maxDepth emptyPush).isOk = true ∧
      failingTransport.listUnread = .ok twoCommands ∧
      outcome (handlePush pushHost failingTransport emptyPush) {} =
        (.error (.transport "503"), ⟨2, [text "g1"]⟩) ∧
      ¬ NoneLost pushHost failingTransport emptyPush := by
  have run : outcome (handlePush pushHost failingTransport emptyPush) {} =
      (.error (.transport "503"), ⟨2, [text "g1"]⟩) := by
    decide +kernel
  refine ⟨by decide +kernel, rfl, run, ?_⟩
  intro kept
  have none := kept twoCommands rfl
  rw [run] at none
  cases none

end PushWebhook
