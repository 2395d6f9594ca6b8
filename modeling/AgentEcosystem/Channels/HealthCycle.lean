import AgentEcosystem.Channels.RequestHosts
import AgentEcosystem.Schemas

/-!
The health of the channels. All clients are pinged one after another before anything is
written, so a cycle leaves a row for every channel or none at all.
-/
namespace Channels
open AgentSchemas DecimalArithmetic JsonText Raising ToolRuntime Transactions UnicodeText

inductive Client where
  | polar (orgToken : Text)
  | lemonSqueezy (apiKey : Text)
  | stripeConnect (secretKey : Text) (c : BaseChannelClient)
      (made : stripeConnectClient secretKey = .ok c)
  | cloudflare (apiToken : Text)
  | porkbun (apiKey secretKey : Text)
  | vercel (pat plan : Text) (c : BaseChannelClient) (made : vercelClient pat plan = .ok c)
  | netlify (pat : Text)

namespace Client

def base : Client → BaseChannelClient
  | .polar orgToken => polarClient orgToken
  | .lemonSqueezy apiKey => lemonSqueezyClient apiKey
  | .stripeConnect _ c _ => c
  | .cloudflare apiToken => cloudflareClient apiToken
  | .porkbun .. => porkbunClient
  | .vercel _ _ c _ => c
  | .netlify pat => netlifyClient pat

def host : Client → Text
  | .polar _ => text "api.polar.sh"
  | .lemonSqueezy _ => text "api.lemonsqueezy.com"
  | .stripeConnect .. => text "api.stripe.com"
  | .cloudflare _ => text "api.cloudflare.com"
  | .porkbun .. => text "api.porkbun.com"
  | .vercel .. => text "api.vercel.com"
  | .netlify _ => text "api.netlify.com"

def health (net : Network) (client : Client) (latencyMs : ℤ) : Calling ChannelStatus :=
  match client with
  | .polar orgToken => Polar.health net orgToken latencyMs
  | .lemonSqueezy apiKey => LemonSqueezy.health net apiKey latencyMs
  | .stripeConnect _ c _ => StripeConnect.health net c latencyMs
  | .cloudflare apiToken => Cloudflare.health net apiToken latencyMs
  | .porkbun apiKey secretKey => Porkbun.health net apiKey secretKey latencyMs
  | .vercel _ _ c _ => Vercel.health net c latencyMs
  | .netlify pat => Netlify.health net pat latencyMs

end Client

theorem stripeConnect_hasHost {secretKey : Text} {c : BaseChannelClient}
    (made : stripeConnectClient secretKey = .ok c) : HasHost c (text "api.stripe.com") := by
  unfold stripeConnectClient at made
  split at made
  · cases made
    exact ⟨⟨text "/v1", rfl, .inr rfl⟩, rfl⟩
  · cases made

theorem vercel_hasHost {pat plan : Text} {c : BaseChannelClient}
    (made : vercelClient pat plan = .ok c) : HasHost c (text "api.vercel.com") := by
  unfold vercelClient at made
  split at made
  · cases made
  · cases made
    exact ⟨⟨[], rfl, .inl rfl⟩, rfl⟩

theorem Client.hasHost (client : Client) : HasHost client.base client.host := by
  cases client with
  | polar => exact ⟨⟨text "/v1", rfl, .inr rfl⟩, rfl⟩
  | lemonSqueezy => exact ⟨⟨text "/v1", rfl, .inr rfl⟩, rfl⟩
  | stripeConnect _ c made => exact stripeConnect_hasHost made
  | cloudflare => exact ⟨⟨text "/client/v4", rfl, .inr rfl⟩, rfl⟩
  | porkbun => exact ⟨⟨text "/api/json/v3", rfl, .inr rfl⟩, rfl⟩
  | vercel _ _ c made => exact vercel_hasHost made
  | netlify => exact ⟨⟨text "/api/v1", rfl, .inr rfl⟩, rfl⟩

structure HealthRow where
  channel : Text
  ok : Bool
  latencyMs : ℤ
  detail : Text
  checkedAt : Timestamp

def ChannelStatus.row (now : Timestamp) (s : ChannelStatus) : HealthRow :=
  ⟨s.name, s.ok, s.latencyMs, s.detail, now⟩

inductive CycleError where
  | channel (e : ChannelError)
  | database (msg : Text)

/-- What a database refuses to insert or to commit: it judges a row by its fields, and a
    commit that it refuses has no effect. -/
structure Database where
  refusesRow : HealthRow → Option Text
  refusesCommit : List HealthRow → Option Text

/-- What was sent and written; `pending` is what the session has not committed. -/
structure World where
  sent : List Request
  committed : List HealthRow
  pending : List HealthRow

section Cycle
variable (net : Network) (db : Database)

def checkAll (clients : List (Client × ℤ)) : Calling (List ChannelStatus) :=
  clients.foldlM (fun results c => do return results ++ [← c.1.health net c.2]) []

def insert (row : HealthRow) : Raising CycleError World Unit :=
  match db.refusesRow row with
  | some msg => throw (.database msg)
  | none => modify fun w => { w with pending := w.pending ++ [row] }

def commit : Raising CycleError World Unit := do
  let w ← get
  match db.refusesCommit w.pending with
  | some msg => throw (.database msg)
  | none => set { w with committed := w.committed ++ w.pending, pending := [] }

def persist (now : Timestamp) (statuses : List ChannelStatus) : Raising CycleError World Unit := do
  statuses.foldlM (fun _ s => insert db (s.row now)) ()
  commit db

/-- Calls to the channels change what was sent only. -/
def calling {α : Type} (x : Calling α) : Raising CycleError World α := do
  let w ← get
  set { w with sent := after x w.sent }
  attempt .channel (outcome x w.sent).1

def runHealthCycle (now : Timestamp) (clients : List (Client × ℤ)) :
    Raising CycleError World (List ChannelStatus) := do
  let statuses ← calling (checkAll net clients)
  persist db now statuses
  return statuses

end Cycle

section Pings
variable {net : Network} {host : Text}

def SentOne (host : Text) (sent t : List Request) : Prop :=
  ∃ r, AtHost host r ∧ t = sent ++ [r]

/-- A ping returns only if its request was answered with success, and raises for such an
    answer only if its body cannot be read. -/
def Pings (net : Network) (host : Text) (ping : Calling Unit) : Prop :=
  ∀ sent, Ensures ping sent (fun _ t => SentOne host sent t ∧ Accepted net t)
    fun e t => SentOne host sent t ∧ (Accepted net t → e = .valueError)

theorem ensures_send {r : Request} {sent : List Request} :
    Ensures (send net r) sent (fun response t => t = sent ++ [r] ∧ net.answer t = .ok response)
      fun e t => t = sent ++ [r] ∧ net.answer t = .error e := by
  unfold Ensures
  rw [outcome_send]
  rcases answered : net.answer (sent ++ [r]) with e | response
  · exact ⟨rfl, answered⟩
  · exact ⟨rfl, answered⟩

theorem not_accepted_of_error {t : List Request} {e : ChannelError}
    (failed : net.answer t = .error e) : ¬ Accepted net t := by
  rintro ⟨response, answered, _⟩
  cases failed.symm.trans answered

theorem accepted_iff {t : List Request} {response : Response}
    (answered : net.answer t = .ok response) :
    Accepted net t ↔ net.statusError response.status = none := by
  constructor
  · rintro ⟨other, answeredOther, fine⟩
    cases answered.symm.trans answeredOther
    exact fine
  · exact fun fine => ⟨response, answered, fine⟩

theorem ensures_raiseForStatus {response : Response} {t : List Request}
    (answered : net.answer t = .ok response) :
    Ensures (raiseForStatus net response) t (fun _ t' => t' = t ∧ Accepted net t)
      fun _ t' => t' = t ∧ ¬ Accepted net t := by
  rw [accepted_iff answered, raiseForStatus]
  rcases status : net.statusError response.status with _ | msg
  · exact ensures_pure ⟨rfl, rfl⟩
  · exact ensures_throw ⟨rfl, Option.some_ne_none msg⟩

theorem pings_send {r : Request} (home : AtHost host r) {rest : Response → Calling Unit}
    (reads : ∀ response t, Ensures (rest response) t (fun _ t' => t' = t)
      fun e t' => t' = t ∧ e = .valueError) :
    Pings net host (do
      let response ← send net r
      raiseForStatus net response
      rest response) := by
  intro sent
  apply ensures_bind
  apply ensures_mono ensures_send
  · rintro response _ ⟨rfl, answered⟩
    have one : SentOne host sent (sent ++ [r]) := ⟨r, home, rfl⟩
    apply ensures_bind
    apply ensures_mono (ensures_raiseForStatus answered)
    · rintro _ _ ⟨rfl, accepted⟩
      apply ensures_mono (reads response (sent ++ [r]))
      · rintro _ _ rfl
        exact ⟨one, accepted⟩
      · rintro e _ ⟨rfl, value⟩
        exact ⟨one, fun _ => value⟩
    · rintro e _ ⟨rfl, refused⟩
      exact ⟨one, fun accepted => absurd accepted refused⟩
  · rintro e _ ⟨rfl, failed⟩
    exact ⟨⟨r, home, rfl⟩, fun accepted => absurd accepted (not_accepted_of_error failed)⟩

theorem ensures_responseJson (response : Response) (t : List Request) :
    Ensures (responseJson response) t (fun _ t' => t' = t) fun e t' => t' = t ∧ e = .valueError := by
  unfold responseJson
  split
  · exact ensures_pure rfl
  · exact ensures_throw ⟨rfl, rfl⟩

theorem ensures_health {c : BaseChannelClient} {ping : Calling Unit} (pings : Pings net host ping)
    (latencyMs : ℤ) (sent : List Request) :
    Ensures (healthOf c ping latencyMs) sent
      (fun status t => SentOne host sent t ∧ status.name = c.name ∧
        (status.ok = true ↔ Accepted net t))
      fun _ t => SentOne host sent t := by
  apply ensures_tryCatch
  apply ensures_bind
  apply ensures_mono (pings sent)
  · rintro _ t ⟨one, accepted⟩
    exact ensures_pure ⟨one, rfl, iff_of_true rfl accepted⟩
  · rintro e t ⟨one, value⟩
    cases e with
    | httpError msg =>
      refine ensures_pure ⟨one, rfl, iff_of_false Bool.false_ne_true ?_⟩
      intro accepted
      cases value accepted
    | valueError => exact ensures_throw one
    | overflowError => exact ensures_throw one
    | decimalSignal signal => exact ensures_throw one
    | unicodeEncodeError => exact ensures_throw one
    | other msg => exact ensures_throw one

theorem ensures_pathHealth {c : BaseChannelClient} (has : HasHost c host) (path : Text)
    (latencyMs : ℤ) (sent : List Request) :
    Ensures (pathHealth net c path latencyMs) sent
      (fun status t => SentOne host sent t ∧ status.name = c.name ∧
        (status.ok = true ↔ Accepted net t))
      fun _ t => SentOne host sent t := by
  have same : (do let _ ← getJson net c path : Calling Unit) = (do
      let response ← send net ⟨.get, joinPath c.baseUrl path, c.authHeaders, .empty⟩
      raiseForStatus net response
      let _ ← responseJson response) := by
    simp only [getJson, bind_assoc]
  rw [pathHealth, same]
  apply ensures_health
  apply pings_send (joinPath_atHost has _ _ _ _)
  intro response t
  apply ensures_bind
  apply ensures_mono (ensures_responseJson response t)
  · rintro _ _ rfl
    exact ensures_pure rfl
  · exact fun _ _ failed => failed

theorem ensures_ownHealth {c : BaseChannelClient} (has : HasHost c host) (path : Text)
    (method : HttpMethod) (headers : List (Text × Text)) (body : Body) (latencyMs : ℤ)
    (sent : List Request) :
    Ensures (healthOf c (do
        let r ← send net ⟨method, c.baseUrl ++ slash :: path, headers, body⟩
        raiseForStatus net r) latencyMs) sent
      (fun status t => SentOne host sent t ∧ status.name = c.name ∧
        (status.ok = true ↔ Accepted net t))
      fun _ t => SentOne host sent t := by
  apply ensures_health
  have pings : Pings net host (do
      let r ← send net ⟨method, c.baseUrl ++ slash :: path, headers, body⟩
      raiseForStatus net r
      pure ()) :=
    pings_send (append_atHost has path method headers body) fun _ _ => ensures_pure rfl
  simpa only [bind_pure_unit] using pings

end Pings

theorem Client.ensures_status (net : Network) (client : Client) (latencyMs : ℤ)
    (sent : List Request) :
    Ensures (client.health net latencyMs) sent
      (fun status t => SentOne client.host sent t ∧ status.name = client.base.name ∧
        (status.ok = true ↔ Accepted net t))
      fun _ t => SentOne client.host sent t := by
  have has := client.hasHost
  cases client with
  | polar => exact ensures_pathHealth has _ latencyMs sent
  | lemonSqueezy => exact ensures_pathHealth has _ latencyMs sent
  | stripeConnect => exact ensures_ownHealth has (text "balance") _ _ _ latencyMs sent
  | cloudflare => exact ensures_pathHealth has _ latencyMs sent
  | porkbun => exact ensures_ownHealth has (text "ping") _ _ _ latencyMs sent
  | vercel => exact ensures_pathHealth has _ latencyMs sent
  | netlify => exact ensures_pathHealth has _ latencyMs sent

section Rounds
variable {net : Network}

def PingedAll (sent : List Request) (clients : List (Client × ℤ)) (t : List Request) : Prop :=
  ∃ requests, t = sent ++ requests ∧ List.Forall₂ (fun c r => AtHost c.1.host r) clients requests

structure Round (net : Network) (sent : List Request) (clients : List (Client × ℤ))
    (results : List ChannelStatus) (t : List Request) : Prop where
  pinged : PingedAll sent clients t
  names : results.map ChannelStatus.name = clients.map fun c => c.1.base.name
  verdicts : ∀ i status, results[i]? = some status →
    (status.ok = true ↔ Accepted net (t.take (sent.length + i + 1)))

theorem pingedAll_append {sent t t' : List Request} {done : List (Client × ℤ)} {c : Client × ℤ}
    (pinged : PingedAll sent done t) (one : SentOne c.1.host t t') :
    PingedAll sent (done ++ [c]) t' := by
  obtain ⟨requests, rfl, homes⟩ := pinged
  obtain ⟨r, home, rfl⟩ := one
  exact ⟨requests ++ [r], List.append_assoc _ _ _,
    List.rel_append homes (.cons home .nil)⟩

theorem pingedAll_length {sent t : List Request} {clients : List (Client × ℤ)}
    (pinged : PingedAll sent clients t) : t.length = sent.length + clients.length := by
  obtain ⟨requests, rfl, homes⟩ := pinged
  rw [List.length_append, homes.length_eq]

theorem round_append {sent t t' : List Request} {done : List (Client × ℤ)} {c : Client × ℤ}
    {results : List ChannelStatus} {status : ChannelStatus} (round : Round net sent done results t)
    (one : SentOne c.1.host t t') (name : status.name = c.1.base.name)
    (verdict : status.ok = true ↔ Accepted net t') :
    Round net sent (done ++ [c]) (results ++ [status]) t' := by
  have pinged := pingedAll_append round.pinged one
  have before := pingedAll_length round.pinged
  have length : results.length = done.length := by
    simpa using congrArg List.length round.names
  obtain ⟨r, _, rfl⟩ := one
  refine ⟨pinged, by simp [round.names, name], ?_⟩
  intro i other there
  rcases Nat.lt_or_ge i results.length with old | new
  · rw [List.getElem?_append_left old] at there
    rw [round.verdicts i other there, List.take_append_of_le_length (by omega)]
  · have last : i = results.length := by
      have bound := (List.getElem?_eq_some_iff.mp there).1
      simp only [List.length_append, List.length_singleton] at bound
      omega
    subst last
    rw [List.getElem?_append_right (Nat.le_refl _), Nat.sub_self] at there
    cases there
    have all : (t ++ [r]).length ≤ sent.length + results.length + 1 := by
      simp only [List.length_append, List.length_singleton]
      omega
    rw [verdict, List.take_of_length_le all]

theorem ensures_checkAll (net : Network) (clients : List (Client × ℤ)) (sent : List Request) :
    Ensures (checkAll net clients) sent (Round net sent clients)
      fun _ t => ∃ pinged, pinged <+: clients ∧ PingedAll sent pinged t := by
  have begun : Round net sent [] [] sent :=
    ⟨⟨[], (List.append_nil sent).symm, .nil⟩, rfl, fun i status there => by simp at there⟩
  apply ensures_foldlM clients begun
  intro done c rest results t whole round
  apply ensures_bind
  apply ensures_mono (c.1.ensures_status net c.2 t)
  · rintro status t' ⟨one, name, verdict⟩
    exact ensures_pure (round_append round one name verdict)
  · intro e t' one
    refine ⟨done ++ [c], ⟨rest, ?_⟩, pingedAll_append round.pinged one⟩
    rw [whole, List.append_assoc, List.singleton_append]

end Rounds

section Writing
variable {net : Network} {db : Database}

theorem ensures_insert (row : HealthRow) (w : World) :
    Ensures (insert db row) w (fun _ w' => w' = { w with pending := w.pending ++ [row] })
      fun _ w' => w' = w := by
  unfold insert
  split
  · exact ensures_throw rfl
  · exact ensures_modify rfl

theorem ensures_commit (w : World) :
    Ensures (commit db) w
      (fun _ w' => w' = { w with committed := w.committed ++ w.pending, pending := [] })
      fun _ w' => w' = w := by
  unfold commit
  apply ensures_bind
  apply ensures_get
  split
  · exact ensures_throw rfl
  · exact ensures_set rfl

theorem ensures_inserts (now : Timestamp) (statuses : List ChannelStatus) (w : World) :
    Ensures (statuses.foldlM (fun _ s => insert db (s.row now)) ()) w
      (fun _ w' => w' = { w with pending := w.pending ++ statuses.map (ChannelStatus.row now) })
      fun _ w' => w'.committed = w.committed ∧ w'.sent = w.sent := by
  have begun : w = { w with pending := w.pending ++ [].map (ChannelStatus.row now) } := by
    rw [List.map_nil, List.append_nil]
  apply ensures_foldlM statuses begun
  rintro done s rest _ _ _ rfl
  apply ensures_mono (ensures_insert _ _)
  · rintro _ _ rfl
    rw [List.map_append, List.append_assoc]
    rfl
  · rintro _ _ rfl
    exact ⟨rfl, rfl⟩

/- Nothing is committed before the last row is written. -/
theorem ensures_persist (now : Timestamp) (statuses : List ChannelStatus) (w : World) :
    Ensures (persist db now statuses) w
      (fun _ w' => w' = { w with
        committed := w.committed ++ (w.pending ++ statuses.map (ChannelStatus.row now))
        pending := [] })
      fun _ w' => w'.committed = w.committed ∧ w'.sent = w.sent := by
  apply ensures_bind
  apply ensures_mono (ensures_inserts now statuses w)
  · rintro _ _ rfl
    apply ensures_mono (ensures_commit _)
    · rintro _ _ rfl
      rfl
    · rintro _ _ rfl
      exact ⟨rfl, rfl⟩
  · exact fun _ _ kept => kept

end Writing

/-- A health cycle writes a row for every client, in their order and with the name of
    each, or it raises and commits nothing. Each client is pinged once, the one behind it
    only when it has been checked, and the row says that the channel is well exactly if
    that ping was answered with success. -/
theorem health_cycle (net : Network) (db : Database) (now : Timestamp)
    (clients : List (Client × ℤ)) (w : World) :
    Ensures (runHealthCycle net db now clients) w
      (fun statuses w' =>
        w'.committed = w.committed ++ (w.pending ++ statuses.map (ChannelStatus.row now)) ∧
        w'.pending = [] ∧ Round net w.sent clients statuses w'.sent)
      fun _ w' => w'.committed = w.committed ∧
        ∃ pinged, pinged <+: clients ∧ PingedAll w.sent pinged w'.sent := by
  have checked := ensures_checkAll net clients w.sent
  apply ensures_bind
  apply ensures_bind
  apply ensures_get
  apply ensures_bind
  apply ensures_set
  apply ensures_attempt
  · intro statuses returned
    have round := ensures_of_ok checked returned
    apply ensures_bind
    apply ensures_mono (ensures_persist now statuses _)
    · rintro _ _ rfl
      exact ensures_pure ⟨rfl, rfl, round⟩
    · rintro e w' ⟨committed, sent⟩
      exact ⟨committed, clients, List.prefix_rfl, sent ▸ round.pinged⟩
  · intro e raised
    exact ⟨rfl, ensures_of_raises checked (Prod.ext raised rfl)⟩

end Channels
