import AgentEcosystem.Json.JsonText
import AgentEcosystem.Operator.OperatorParser
import AgentEcosystem.Semantics.Raising
import AgentEcosystem.Text.Base64

/-!
The push webhook for the operator's mail. A push only tells that there is mail:
the unread messages are fetched, parsed and marked as read one after another,
and what they were parsed to is returned when all are done.
-/
namespace PushWebhook
open AgentSchemas Base64 JsonText OperatorParser Raising UnicodeText

structure GmailMessage where
  id : Text
  subject : Text
  body : Text
  fromAddr : Text
  deriving DecidableEq, Repr

structure PushEnvelope where
  messageData : Json
  messageId : Json
  subscription : Json
  deriving Repr

inductive DecodeError where
  /-- `get` of a value that is not a dict. -/
  | attributeError
  /-- The data are not a string. -/
  | typeError
  | unicodeEncodeError
  | binasciiError (e : BinasciiError)
  | unicodeDecodeError
  | jsonError (e : JsonError)
  deriving DecidableEq, Repr

/-- `v.get(key, default)` -/
def getMember (v : Json) (key : String) (default : Json) : Except DecodeError Json :=
  match v with
  | .obj members => .ok ((members.lookup (text key)).getD default)
  | _ => .error .attributeError

/-- `"=" * (-len(t) % 4)` -/
def padding (t : Text) : Text := List.replicate (-(t.length : ℤ) % 4).toNat (ofChar '=')

/-- `json.loads(base64.b64decode((data_b64 + pad).encode()).decode())` -/
def decodePayload (maxDepth : ℕ) (dataB64 : Text) : Except DecodeError Json :=
  match encode (dataB64 ++ padding dataB64) with
  | none => .error .unicodeEncodeError
  | some ascii =>
    match b64decode ascii with
    | .error e => .error (.binasciiError e)
    | .ok bytes =>
      match decodeStrict bytes with
      | none => .error .unicodeDecodeError
      | some document => (loads maxDepth document).mapError .jsonError

def decodePush (maxDepth : ℕ) (envelope : Json) : Except DecodeError PushEnvelope := do
  let msg ← getMember envelope "message" (.obj [])
  match ← getMember msg "data" (.str []) with
  | .str dataB64 =>
    let payload ← decodePayload maxDepth dataB64
    return ⟨payload, ← getMember msg "messageId" (.str []),
      ← getMember envelope "subscription" (.str [])⟩
  | _ => throw .typeError

/-- What a call of `mark_read` does. One that raises may have marked the message. -/
inductive MarkRead (E : Type) where
  | done
  | raised (e : E) (marked : Bool)
  deriving DecidableEq, Repr

/-- The mail service; its exceptions are the `E`. -/
structure GmailTransport (E : Type) where
  listUnread : Except E (List GmailMessage)
  /-- The call by its number and the identifier it is made with. -/
  markRead : ℕ → Text → MarkRead E

structure Mailbox where
  calls : ℕ := 0
  read : List Text := []
  deriving DecidableEq, Repr

inductive PushError (E : Type) where
  | decode (e : DecodeError)
  | parse (e : ParseError)
  | transport (e : E)
  deriving DecidableEq, Repr

variable {E : Type}

def markRead (transport : GmailTransport E) (id : Text) : Raising (PushError E) Mailbox Unit := do
  let s ← get
  match transport.markRead s.calls id with
  | .done => set (⟨s.calls + 1, s.read ++ [id]⟩ : Mailbox)
  | .raised e marked =>
    set (⟨s.calls + 1, if marked then s.read ++ [id] else s.read⟩ : Mailbox)
    throw (.transport e)

/-- What the host provides: the hash function, the character database, and how deep
    a document its JSON reader follows. -/
structure Host where
  sha256 : Sha256
  strData : StrData
  maxDepth : ℕ

def Host.parse (host : Host) (m : GmailMessage) : Except ParseError ParseResult :=
  OperatorParser.parse host.sha256 host.strData m.subject m.body

section Push
variable (host : Host) (transport : GmailTransport E)

def handleMessage (parsed : List ParseResult) (m : GmailMessage) :
    Raising (PushError E) Mailbox (List ParseResult) := do
  let result ← attempt .parse (host.parse m)
  let parsed := parsed ++ [result]
  markRead transport m.id
  return parsed

def handlePush (envelope : Json) : Raising (PushError E) Mailbox (List ParseResult) := do
  -- only the shape is validated
  let _ ← attempt .decode (decodePush host.maxDepth envelope)
  let unread ← attempt .transport transport.listUnread
  unread.foldlM (handleMessage host transport) []

def Handled (n : ℕ) (m : GmailMessage) : Prop :=
  (∃ result, host.parse m = .ok result) ∧ transport.markRead n m.id = .done

def Unmarked (n : ℕ) (m : GmailMessage) : Prop :=
  (∃ e, host.parse m = .error e) ∨ ∃ e, transport.markRead n m.id = .raised e false

def AllHandled (unread : List GmailMessage) : Prop :=
  ∀ n m, unread[n]? = some m → Handled host transport n m

theorem not_handled_of_unmarked {n : ℕ} {m : GmailMessage} (unmarked : Unmarked host transport n m) :
    ¬ Handled host transport n m := by
  rintro ⟨⟨result, parsed⟩, marked⟩
  rcases unmarked with ⟨e, failed⟩ | ⟨e, failed⟩
  · rw [parsed] at failed
    cases failed
  · rw [marked] at failed
    cases failed

structure Progress (done : List GmailMessage) (parsed : List ParseResult) (s : Mailbox) :
    Prop where
  handled : AllHandled host transport done
  results : done.map host.parse = parsed.map .ok
  calls : s.calls = done.length
  read : s.read = done.map GmailMessage.id

/-- When the message behind `done` raised an exception, which it may have done after
    it was marked. -/
structure Stopped (done : List GmailMessage) (m : GmailMessage) (s : Mailbox) : Prop where
  handled : AllHandled host transport done
  raised : ¬ Handled host transport done.length m
  read : Unmarked host transport done.length m ∧ s.read = done.map GmailMessage.id ∨
    ¬ Unmarked host transport done.length m ∧ s.read = (done ++ [m]).map GmailMessage.id

variable {host transport}

theorem AllHandled.concat {done : List GmailMessage} {m : GmailMessage}
    (before : AllHandled host transport done) (handled : Handled host transport done.length m) :
    AllHandled host transport (done ++ [m]) := by
  intro n m' found
  rcases lt_trichotomy n done.length with below | rfl | above
  · rw [List.getElem?_append_left below] at found
    exact before n m' found
  · rw [List.getElem?_concat_length] at found
    cases found
    exact handled
  · rw [List.getElem?_eq_none (by simp; omega)] at found
    cases found

theorem markRead_spec (s : Mailbox) (id : Text) :
    Ensures (markRead transport id) s
      (fun _ t => transport.markRead s.calls id = .done ∧ t = ⟨s.calls + 1, s.read ++ [id]⟩)
      fun _ t => ∃ e marked, transport.markRead s.calls id = .raised e marked ∧
        t.read = if marked then s.read ++ [id] else s.read := by
  unfold markRead
  apply ensures_bind
  apply ensures_get
  cases transport.markRead s.calls id with
  | done => exact ensures_set ⟨rfl, rfl⟩
  | raised e marked =>
    apply ensures_bind
    apply ensures_set
    exact ensures_throw ⟨e, marked, rfl, rfl⟩

theorem handleMessage_spec {done : List GmailMessage} {parsed : List ParseResult} {s : Mailbox}
    (progress : Progress host transport done parsed s) (m : GmailMessage) :
    Ensures (handleMessage host transport parsed m) s
      (fun parsed' t => Progress host transport (done ++ [m]) parsed' t)
      fun _ t => Stopped host transport done m t := by
  unfold handleMessage
  apply ensures_bind
  apply ensures_attempt
  · intro result accepted
    apply ensures_bind
    apply ensures_mono (markRead_spec s m.id)
    · rintro _ t ⟨marked, rfl⟩
      rw [progress.calls] at marked
      apply ensures_pure
      exact {
        handled := progress.handled.concat ⟨⟨result, accepted⟩, marked⟩
        results := by simp [progress.results, accepted]
        calls := by simp [progress.calls]
        read := by simp [progress.read] }
    · rintro _ t ⟨e, marked, failed, read⟩
      rw [progress.calls] at failed
      refine ⟨progress.handled, ?_, ?_⟩
      · intro handled
        rw [handled.2] at failed
        cases failed
      · cases marked with
        | false => exact .inl ⟨.inr ⟨e, failed⟩, by simpa [progress.read] using read⟩
        | true =>
          refine .inr ⟨?_, by simpa [progress.read] using read⟩
          rintro (⟨e', refused⟩ | ⟨e', unmarked⟩)
          · rw [accepted] at refused
            cases refused
          · rw [failed] at unmarked
            cases unmarked
  · intro e refused
    have unmarked : Unmarked host transport done.length m := .inl ⟨e, refused⟩
    exact ⟨progress.handled, not_handled_of_unmarked host transport unmarked,
      .inl ⟨unmarked, progress.read⟩⟩

variable (host transport) in
theorem handlePush_spec (envelope : Json) :
    Ensures (handlePush host transport envelope) {}
      (fun results s => (∃ push, decodePush host.maxDepth envelope = .ok push) ∧
        ∃ unread, transport.listUnread = .ok unread ∧ Progress host transport unread results s)
      fun _ s => s = {} ∧ (∃ e, decodePush host.maxDepth envelope = .error e) ∨
        s = {} ∧ (∃ e, transport.listUnread = .error e) ∨
        (∃ push, decodePush host.maxDepth envelope = .ok push) ∧
          ∃ done m rest, transport.listUnread = .ok (done ++ m :: rest) ∧
            Stopped host transport done m s := by
  unfold handlePush
  apply ensures_bind
  apply ensures_attempt
  · intro push decoded
    apply ensures_bind
    apply ensures_attempt
    · intro unread listed
      have start : Progress host transport [] [] {} :=
        ⟨by simp [AllHandled], rfl, rfl, rfl⟩
      have loop : Ensures (unread.foldlM (handleMessage host transport) []) {}
          (Progress host transport unread)
          fun _ t => ∃ done m rest, unread = done ++ m :: rest ∧ Stopped host transport done m t := by
        apply ensures_foldlM unread start
        intro done m rest parsed s whole progress
        apply ensures_mono (handleMessage_spec progress m)
        · intro _ _ next
          exact next
        · intro _ t stopped
          exact ⟨done, m, rest, whole, stopped⟩
      apply ensures_mono loop
      · intro results t progress
        exact ⟨⟨push, decoded⟩, unread, listed, progress⟩
      · rintro _ t ⟨done, m, rest, rfl, stopped⟩
        exact .inr (.inr ⟨⟨push, decoded⟩, done, m, rest, listed, stopped⟩)
    · intro e failed
      exact .inr (.inl ⟨rfl, e, failed⟩)
  · intro e failed
    exact .inl ⟨rfl, e, failed⟩

end Push

def pushDigest (bytes : Bytes) : String :=
  if some bytes = encode (text "CONTINUE") then
    "628db0c7598820b101769164f5228a5096e4f531ee71ee7e5e31d734dd38fe64"
  else if some bytes = encode (text "KILL ALL") then
    "ac8c77faa6360df937ea9df216f2b42433a11810bc5d82c53ad4e66b03801e28"
  else "547af54b79fda74eda8b126055f0f72780fa353c411cc7ec055fdbfaa088fcf9"

def pushHost : Host where
  sha256 :=
    { hexdigest := pushDigest
      hex := by
        intro bytes
        apply hex_of_all
        unfold pushDigest
        split
        · decide +kernel
        · split <;> decide +kernel }
  strData := asciiStrData
  maxDepth := 100

def emptyPush : Json :=
  .obj [(text "message", .obj [(text "data", .str (text "e30=")),
      (text "messageId", .str (text "push-1"))]),
    (text "subscription", .str (text "projects/p/subscriptions/s"))]

example : decodePush 100 emptyPush = .ok ⟨.obj [], .str (text "push-1"),
    .str (text "projects/p/subscriptions/s")⟩ := by rfl

end PushWebhook
