import AgentEcosystem.Gmail.LostCommands
import AgentEcosystem.Semantics.Runs
import Mathlib.Data.List.Nodup

/-!
The webhook route over many pushes. Mail arrives, pushes are posted, and every push
takes what its transport lists at that moment. The route answers with one entry for
each message it handled, so what is marked as read is answered once at most.
-/
namespace PushWebhook
open AgentSchemas JsonText OperatorParser Raising UnicodeText Runs

inductive ResultSummary where
  | operatorMessage (action : Action)
  | formLetter (reason : Text)
  deriving DecidableEq, Repr

structure PushResponse where
  processed : ℕ
  results : List ResultSummary
  deriving DecidableEq, Repr

inductive RouteError (E : Type) where
  /-- `request.json()` -/
  | json (e : JsonError)
  | httpException (statusCode : ℕ) (detail : String)
  | push (e : PushError E)
  deriving DecidableEq, Repr

def ParseResult.summary : ParseResult → ResultSummary
  | .operatorMessage m => .operatorMessage m.action
  | .formLetter f => .formLetter f.reason

variable {E : Type} (host : Host)

def gmailPush (configured : Option (GmailTransport E)) (request : Except JsonError Json) :
    Raising (RouteError E) Mailbox PushResponse := do
  let envelope ← attempt .json request
  match configured with
  | none => throw (.httpException 503 "gmail transport not configured")
  | some transport =>
    let results ← relabel .push (handlePush host transport envelope)
    let out := results.map ParseResult.summary
    return ⟨results.length, out⟩

inductive MailEvent (E : Type) where
  | arrive (m : GmailMessage)
  | post (request : Except JsonError Json) (configured : Option (GmailTransport E))

/-- What arrived, the identifiers in the order in which they were marked as read, and
    the answers of the route. -/
structure Postbox where
  inbox : List GmailMessage := []
  read : List Text := []
  answers : List PushResponse := []
  deriving DecidableEq, Repr

namespace Postbox

def unread (s : Postbox) : List GmailMessage := s.inbox.filter fun m => m.id ∉ s.read

def marked (s : Postbox) : List GmailMessage :=
  s.read.filterMap fun id => s.inbox.find? fun m => m.id = id

def answered (s : Postbox) : List ResultSummary := s.answers.flatMap PushResponse.results

def posted (s : Postbox) (push : Except (RouteError E) PushResponse × Mailbox) : Postbox :=
  { s with
    read := s.read ++ push.2.read
    answers := match push.1 with
      | .ok response => s.answers ++ [response]
      | .error _ => s.answers }

end Postbox

def mailStep (s : Postbox) : MailEvent E → Postbox
  | .arrive m => { s with inbox := s.inbox ++ [m] }
  | .post request configured => s.posted (outcome (gmailPush host configured request) {})

/-- What is relied on of the mail service: the identifiers of messages are their own, and
    `list_unread` lists messages that are unread, none of them twice. -/
def Served (s : Postbox) : MailEvent E → Prop
  | .arrive m => m.id ∉ s.inbox.map GmailMessage.id
  | .post _ configured => ∀ transport listing, configured = some transport →
    transport.listUnread = .ok listing →
    (∀ m ∈ listing, m ∈ s.unread) ∧ (listing.map GmailMessage.id).Nodup

/-- The transport lists all that is unread, in the order of arrival. -/
def ListsInOrder (s : Postbox) : MailEvent E → Prop
  | .arrive _ => True
  | .post _ configured => ∀ transport listing, configured = some transport →
    transport.listUnread = .ok listing → listing = s.unread

/-- The push handles everything, or what fails is its first message, and that unmarked. -/
def LosesNothing : MailEvent E → Prop
  | .arrive _ => True
  | .post request configured => ∀ envelope push transport listing, request = .ok envelope →
    decodePush host.maxDepth envelope = .ok push → configured = some transport →
    transport.listUnread = .ok listing → FailsOnlyFirst host transport listing

def expected (ms : List GmailMessage) : List (Except ParseError ResultSummary) :=
  ms.map fun m => (host.parse m).map ParseResult.summary

/-- Every identifier that was marked is that of a message, and was marked once; and the
    answers hold entries for some of these messages, in order, one for each at most. -/
structure Postbox.Tidy (s : Postbox) : Prop where
  arrivals : (s.inbox.map GmailMessage.id).Nodup
  marked : s.marked.map GmailMessage.id = s.read
  once : s.read.Nodup
  answered : (s.answered.map .ok).Sublist (expected host s.marked)

def Postbox.Answered (s : Postbox) : Prop := s.answered.map .ok = expected host s.marked

structure Posted (s t : Postbox) (configured : Option (GmailTransport E)) (lossless : Prop)
    (marks : List GmailMessage) : Prop where
  inbox : t.inbox = s.inbox
  read : t.read = s.read ++ marks.map GmailMessage.id
  listed : marks ≠ [] → ∃ transport listing, configured = some transport ∧
    transport.listUnread = .ok listing ∧ marks <+: listing
  answers : (lossless ∧ t.answered.map .ok = s.answered.map .ok ++ expected host marks) ∨
    (¬ lossless ∧ marks ≠ [] ∧ t.answered = s.answered)

variable {host} {s : Postbox}

section Posts
variable (host) (configured : Option (GmailTransport E)) (request : Except JsonError Json)

/- A post handles all that is listed, leaves the mailbox as it was, or stops at a message. -/
theorem gmailPush_spec : Ensures (gmailPush host configured request) {}
    (fun response t => ∃ transport listing results, configured = some transport ∧
      transport.listUnread = .ok listing ∧
      response = ⟨results.length, results.map ParseResult.summary⟩ ∧
      Progress host transport listing results t)
    fun _ t => (t.read = [] ∧ LosesNothing host (.post request configured)) ∨
      ∃ envelope push transport done m rest, request = .ok envelope ∧
        decodePush host.maxDepth envelope = .ok push ∧ configured = some transport ∧
        transport.listUnread = .ok (done ++ m :: rest) ∧ Stopped host transport done m t := by
  apply ensures_bind
  apply ensures_attempt
  · intro envelope accepted
    cases configured with
    | none =>
      apply ensures_throw
      refine .inl ⟨rfl, ?_⟩
      intro _ _ _ _ _ _ some
      cases some
    | some transport =>
      apply ensures_bind
      apply ensures_relabel
      apply ensures_mono (handlePush_spec host transport envelope)
      · rintro results t ⟨_, listing, listed, progress⟩
        exact ensures_pure ⟨transport, listing, results, rfl, listed, rfl, progress⟩
      · rintro e t (⟨rfl, e, failed⟩ | ⟨rfl, e, failed⟩ |
          ⟨⟨push, decoded⟩, done, m, rest, listed, stopped⟩)
        · refine .inl ⟨rfl, ?_⟩
          intro envelope' push _ _ same decoded
          rw [accepted] at same
          cases same
          rw [failed] at decoded
          cases decoded
        · refine .inl ⟨rfl, ?_⟩
          intro _ _ transport' listing _ _ same listed
          cases same
          rw [failed] at listed
          cases listed
        · exact .inr ⟨envelope, push, transport, done, m, rest, accepted, decoded, rfl, listed,
            stopped⟩
  · intro e failed
    refine .inl ⟨rfl, ?_⟩
    intro _ _ _ _ accepted
    rw [failed] at accepted
    cases accepted

variable {host configured request}

theorem answered_ok (response : PushResponse) (t : Mailbox) :
    (s.posted ((.ok response : Except (RouteError E) PushResponse), t)).answered =
      s.answered ++ response.results := by
  simp [Postbox.posted, Postbox.answered]

theorem progress_expected {transport : GmailTransport E} {listing : List GmailMessage}
    {results : List ParseResult} {t : Mailbox}
    (progress : Progress host transport listing results t) :
    (results.map ParseResult.summary).map .ok = expected host listing := by
  have parsed := congrArg (List.map (Except.map ParseResult.summary)) progress.results
  rw [List.map_map, List.map_map] at parsed
  rw [expected, List.map_map]
  exact parsed.symm

theorem losesNothing_of_stopped {envelope : Json} {push : PushEnvelope}
    {transport : GmailTransport E} {done rest : List GmailMessage} {m : GmailMessage} {t : Mailbox}
    (accepted : request = .ok envelope) (decoded : decodePush host.maxDepth envelope = .ok push)
    (chosen : configured = some transport) (listed : transport.listUnread = .ok (done ++ m :: rest))
    (stopped : Stopped host transport done m t) :
    LosesNothing host (.post request configured) ↔ t.read = [] := by
  rw [stopped.read_iff rest]
  constructor
  · intro kept
    exact kept envelope push transport _ accepted decoded chosen listed
  · intro kept _ _ transport' listing _ _ same listed'
    cases chosen.symm.trans same
    cases listed.symm.trans listed'
    exact kept

theorem posted_spec : ∃ marks, Posted host s (mailStep host s (.post request configured))
    configured (LosesNothing host (.post request configured)) marks := by
  have spec := gmailPush_spec host configured request
  rw [mailStep]
  rcases run : outcome (gmailPush host configured request) {} with ⟨e | response, t⟩
  · rcases ensures_of_raises spec run with ⟨none, kept⟩ | ⟨envelope, push, transport, done, m, rest,
      accepted, decoded, chosen, listed, stopped⟩
    · refine ⟨[], rfl, congrArg (s.read ++ ·) none, fun some => absurd rfl some, .inl ⟨kept, ?_⟩⟩
      exact (List.append_nil _).symm
    · have lossless := losesNothing_of_stopped accepted decoded chosen listed stopped
      obtain ⟨marks, isPrefix, read⟩ : ∃ marks, marks <+: done ++ m :: rest ∧
          t.read = marks.map GmailMessage.id := by
        rcases stopped.read with ⟨_, read⟩ | ⟨_, read⟩
        · exact ⟨done, List.prefix_append _ _, read⟩
        · exact ⟨done ++ [m], ⟨rest, by simp⟩, read⟩
      rw [read, List.map_eq_nil_iff] at lossless
      refine ⟨marks, rfl, congrArg (s.read ++ ·) read,
        fun _ => ⟨transport, _, chosen, listed, isPrefix⟩, ?_⟩
      by_cases none : marks = []
      · subst none
        exact .inl ⟨lossless.mpr rfl, (List.append_nil _).symm⟩
      · exact .inr ⟨none ∘ lossless.mp, none, rfl⟩
  · obtain ⟨transport, listing, results, chosen, listed, rfl, progress⟩ :=
      ensures_of_returns spec run
    refine ⟨listing, rfl, congrArg (s.read ++ ·) progress.read,
      fun _ => ⟨transport, listing, chosen, listed, List.prefix_rfl⟩, .inl ⟨?_, ?_⟩⟩
    · intro _ _ transport' listing' _ _ same listed'
      cases chosen.symm.trans same
      cases listed.symm.trans listed'
      exact .inl progress.handled
    · rw [answered_ok, List.map_append, progress_expected progress]

end Posts

section Steps

theorem find_of_mem {ms : List GmailMessage} (own : (ms.map GmailMessage.id).Nodup)
    {m : GmailMessage} (mem : m ∈ ms) : ms.find? (fun m' => m'.id = m.id) = some m := by
  obtain ⟨before, after, rfl⟩ := List.append_of_mem mem
  rw [List.map_append, List.map_cons, List.nodup_append] at own
  rw [List.find?_append, List.find?_eq_none.mpr, Option.none_or, List.find?_cons_of_pos (by simp)]
  intro other there same
  exact own.2.2 _ (List.mem_map_of_mem there) _ List.mem_cons_self (of_decide_eq_true same)

theorem marked_posted {t : Postbox} {marks : List GmailMessage} (inbox : t.inbox = s.inbox)
    (read : t.read = s.read ++ marks.map GmailMessage.id)
    (own : (s.inbox.map GmailMessage.id).Nodup) (known : ∀ m ∈ marks, m ∈ s.inbox) :
    t.marked = s.marked ++ marks := by
  have found : (marks.map GmailMessage.id).filterMap
      (fun id => s.inbox.find? fun m => m.id = id) = marks := by
    rw [List.filterMap_map]
    have each : ∀ m ∈ marks, ((fun id => s.inbox.find? fun m => m.id = id) ∘ GmailMessage.id) m =
        some m := fun m mem => find_of_mem own (known m mem)
    rw [List.filterMap_congr each, List.filterMap_some]
  rw [Postbox.marked, inbox, read, List.filterMap_append, found, Postbox.marked]

theorem marked_arrived (tidy : s.Tidy host) (m : GmailMessage) :
    (mailStep host s (.arrive m : MailEvent E)).marked = s.marked := by
  apply List.filterMap_congr
  intro id mem
  change id ∈ s.read at mem
  rw [← tidy.marked] at mem
  obtain ⟨m', isMarked, rfl⟩ := List.mem_map.mp mem
  obtain ⟨_, _, found⟩ := List.mem_filterMap.mp isMarked
  have here := List.mem_of_find?_eq_some found
  simp only [mailStep, List.find?_append, find_of_mem tidy.arrivals here, Option.some_or]

theorem marks_of_served {request : Except JsonError Json}
    {configured : Option (GmailTransport E)} (served : Served s (.post request configured))
    {t : Postbox} {lossless : Prop} {marks : List GmailMessage}
    (post : Posted host s t configured lossless marks) :
    (∀ m ∈ marks, m ∈ s.unread) ∧ (marks.map GmailMessage.id).Nodup := by
  by_cases none : marks = []
  · subst none
    exact ⟨nofun, List.nodup_nil⟩
  · obtain ⟨transport, listing, chosen, listed, isPrefix⟩ := post.listed none
    obtain ⟨unread, once⟩ := served transport listing chosen listed
    exact ⟨fun m mem => unread m (isPrefix.subset mem),
      once.sublist (isPrefix.sublist.map GmailMessage.id)⟩

theorem tidy_step (tidy : s.Tidy host) {event : MailEvent E} (served : Served s event) :
    (mailStep host s event).Tidy host := by
  cases event with
  | arrive m =>
    have same := marked_arrived (E := E) tidy m
    refine ⟨?_, by rw [same]; exact tidy.marked, tidy.once, by rw [same]; exact tidy.answered⟩
    simp only [mailStep, List.map_append, List.map_cons, List.map_nil]
    rw [List.nodup_append]
    refine ⟨tidy.arrivals, List.nodup_singleton _, ?_⟩
    rintro id there _ here rfl
    exact served (List.mem_singleton.mp here ▸ there)
  | post request configured =>
    obtain ⟨marks, post⟩ : ∃ marks, Posted host s (mailStep host s (.post request configured))
      configured (LosesNothing host (.post request configured)) marks := posted_spec
    obtain ⟨unread, once⟩ := marks_of_served served post
    have known : ∀ m ∈ marks, m ∈ s.inbox := fun m mem => (List.mem_filter.mp (unread m mem)).1
    have marked := marked_posted post.inbox post.read tidy.arrivals known
    constructor
    · rw [post.inbox]
      exact tidy.arrivals
    · rw [marked, post.read, List.map_append, tidy.marked]
    · rw [post.read, List.nodup_append]
      refine ⟨tidy.once, once, ?_⟩
      rintro id seen _ new rfl
      obtain ⟨m, mem, rfl⟩ := List.mem_map.mp new
      exact of_decide_eq_true (List.mem_filter.mp (unread m mem)).2 seen
    · rw [marked, expected, List.map_append]
      rcases post.answers with ⟨_, more⟩ | ⟨_, _, same⟩
      · rw [more]
        exact tidy.answered.append (List.Sublist.refl _)
      · rw [same]
        exact tidy.answered.trans (List.sublist_append_left _ _)

theorem answered_step {event : MailEvent E} (tidy : s.Tidy host) (answered : s.Answered host)
    (served : Served s event) :
    (mailStep host s event).Answered host ↔ LosesNothing host event := by
  unfold Postbox.Answered at answered ⊢
  cases event with
  | arrive m =>
    rw [marked_arrived tidy m]
    exact iff_of_true answered trivial
  | post request configured =>
    obtain ⟨marks, post⟩ : ∃ marks, Posted host s (mailStep host s (.post request configured))
      configured (LosesNothing host (.post request configured)) marks := posted_spec
    have known : ∀ m ∈ marks, m ∈ s.inbox := fun m mem =>
      (List.mem_filter.mp ((marks_of_served served post).1 m mem)).1
    rw [marked_posted post.inbox post.read tidy.arrivals known]
    rcases post.answers with ⟨kept, more⟩ | ⟨lost, some, same⟩
    · rw [more, answered, expected, expected, expected, List.map_append]
      exact iff_of_true rfl kept
    · rw [same, answered]
      refine iff_of_false ?_ lost
      intro short
      have lengths := congrArg List.length short
      simp only [expected, List.length_map, List.length_append] at lengths
      exact some (List.length_eq_zero_iff.mp (by omega))

/- What is listed behind a marked prefix of the arrivals is the rest of them. -/
theorem prefix_step (tidy : s.Tidy host) (isPrefix : s.marked <+: s.inbox) {event : MailEvent E}
    (served : Served s event) (ordered : ListsInOrder s event) :
    (mailStep host s event).marked <+: (mailStep host s event).inbox := by
  cases event with
  | arrive m =>
    rw [marked_arrived tidy m]
    exact isPrefix.trans (List.prefix_append _ _)
  | post request configured =>
    obtain ⟨marks, post⟩ : ∃ marks, Posted host s (mailStep host s (.post request configured))
      configured (LosesNothing host (.post request configured)) marks := posted_spec
    have known : ∀ m ∈ marks, m ∈ s.inbox := fun m mem =>
      (List.mem_filter.mp ((marks_of_served served post).1 m mem)).1
    rw [marked_posted post.inbox post.read tidy.arrivals known, post.inbox]
    obtain ⟨rest, whole⟩ := isPrefix
    have unread : s.unread = rest := by
      have own := tidy.arrivals
      rw [← whole, List.map_append, List.nodup_append] at own
      rw [Postbox.unread, ← tidy.marked, ← whole, List.filter_append]
      have seen : s.marked.filter (fun m => m.id ∉ s.marked.map GmailMessage.id) = [] := by
        rw [List.filter_eq_nil_iff]
        intro m mem
        simpa using ⟨m, mem, rfl⟩
      have unseen : rest.filter (fun m => m.id ∉ s.marked.map GmailMessage.id) = rest := by
        rw [List.filter_eq_self]
        intro m mem
        apply decide_eq_true
        intro there
        exact own.2.2 _ there _ (List.mem_map_of_mem mem) rfl
      rw [seen, unseen, List.nil_append]
    rw [← whole, List.prefix_append_right_inj]
    by_cases none : marks = []
    · rw [none]
      exact List.nil_prefix
    · obtain ⟨transport, listing, chosen, listed, isPrefix⟩ := post.listed none
      rwa [ordered transport listing chosen listed, unread] at isPrefix

end Steps

variable (host)

theorem unconfigured_keeps (s : Postbox) (request : Except JsonError Json) :
    mailStep host s (.post request none : MailEvent E) = s := by
  cases request <;> simp [mailStep, Postbox.posted, gmailPush, attempt]

/-- Mail is read and answered at most once: for every transport that lists unread
    messages only, and whatever fails, the entries of all answers together are those of
    messages that were marked as read, each at most once and in the order of marking.
    Every message marked so far is answered all along exactly when no push of the run
    raises behind its first message. Where what is listed comes in the order of arrival,
    no message behind an unread one is marked. A push without a transport does nothing. -/
theorem read_in_order (events : List (MailEvent E))
    (served : Meets (mailStep host) Served {} events) :
    (run (mailStep host) {} events).Tidy host ∧
    (Throughout (mailStep host) (Postbox.Answered host) {} events ↔
      ∀ event ∈ events, LosesNothing host event) ∧
    (Meets (mailStep host) ListsInOrder {} events →
      (run (mailStep host) {} events).marked <+: (run (mailStep host) {} events).inbox) ∧
    ∀ s request, mailStep host s (.post request none : MailEvent E) = s := by
  have empty : Postbox.Tidy host {} := ⟨List.nodup_nil, rfl, List.nodup_nil, List.Sublist.refl _⟩
  have keep : ∀ s (event : MailEvent E), Served s event → s.Tidy host →
      (mailStep host s event).Tidy host := fun s event served tidy => tidy_step tidy served
  refine ⟨meets_invariant _ (Postbox.Tidy host) keep empty served, ?_, ?_, unconfigured_keeps host⟩
  · have decides : ∀ s (event : MailEvent E), Served s event → s.Tidy host ∧ s.Answered host →
        ((mailStep host s event).Tidy host ∧ (mailStep host s event).Answered host ↔
          LosesNothing host event) := by
      rintro s event served ⟨tidy, answered⟩
      rw [← answered_step tidy answered served]
      exact and_iff_right (tidy_step tidy served)
    rw [← meets_iff_forall (mailStep host) (s := {}), ← throughout_iff_meets_under _
      (fun s => s.Tidy host ∧ s.Answered host) decides ⟨empty, rfl⟩ served]
    have along := throughout_of_meets _ (Postbox.Tidy host) keep empty served
    constructor
    · intro answered before isPrefix
      exact ⟨along before isPrefix, answered before isPrefix⟩
    · intro kept before isPrefix
      exact (kept before isPrefix).2
  · intro ordered
    have kept : ∀ s (event : MailEvent E), Served s event ∧ ListsInOrder s event →
        s.Tidy host ∧ s.marked <+: s.inbox → (mailStep host s event).Tidy host ∧
          (mailStep host s event).marked <+: (mailStep host s event).inbox :=
      fun s event ⟨served, inOrder⟩ ⟨tidy, isPrefix⟩ =>
        ⟨tidy_step tidy served, prefix_step tidy isPrefix served inOrder⟩
    exact (meets_invariant _ _ kept ⟨empty, List.prefix_rfl⟩ (meets_both _ served ordered)).2

/-- Both commands arrive before the first push, whose second call of `mark_read` fails;
    the push is delivered again. -/
def redeliveredPush : List (MailEvent String) :=
  twoCommands.map .arrive ++
    [.post (.ok emptyPush) (some failingTransport),
      .post (.ok emptyPush) (some ⟨.ok (twoCommands.drop 1), fun _ _ => .done⟩)]

theorem redeliveredPush_served : Meets (mailStep pushHost) Served {} redeliveredPush := by
  refine ⟨?_, ?_, ?_, ?_, trivial⟩
  · intro there
    cases there
  · unfold Served
    decide +kernel
  · intro transport listing same listed
    cases same
    cases listed
    decide +kernel
  · intro transport listing same listed
    cases same
    cases listed
    decide +kernel

theorem redelivery_too_late :
    (run (mailStep pushHost) {} redeliveredPush).answered = [.operatorMessage .continue] ∧
      ¬ ∀ event ∈ redeliveredPush, LosesNothing pushHost event := by
  have final : run (mailStep pushHost) {} redeliveredPush =
      ⟨twoCommands, [text "g1", text "g2"], [⟨1, [.operatorMessage .continue]⟩]⟩ := by
    decide +kernel
  refine ⟨by rw [final]; rfl, ?_⟩
  intro lossless
  have answered := (read_in_order pushHost redeliveredPush redeliveredPush_served).2.1.mpr lossless
    _ List.prefix_rfl
  rw [final] at answered
  have lengths := congrArg List.length answered
  cases lengths

end PushWebhook
