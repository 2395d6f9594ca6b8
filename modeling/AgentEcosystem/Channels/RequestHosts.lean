import AgentEcosystem.Channels.Clients
import AgentEcosystem.Semantics.Transactions
import AgentEcosystem.Tools.DomainGuard

/-!
Where the clients' requests go. Names, keys and paths from a caller end up in the path
of a URL, never in front of it, so a client's credentials reach the host of its API only.
-/
namespace Channels
open DecimalArithmetic JsonText Raising ToolRuntime UnicodeText

inductive PolarCall where
  | health (latencyMs : ℤ)
  | createProduct (name : Text) (priceUsd : Decimal) (isRecurring : Bool)
  | createCheckout (productId successUrl : Text)
  | listPayouts

inductive LemonSqueezyCall where
  | health (latencyMs : ℤ)
  | createProduct (name storeId : Text)
  | createVariant (productId : Text) (priceUsd : Decimal)
  | createCheckout (variantId storeId : Text)
  | listSubscriptions

inductive StripeConnectCall where
  | health (latencyMs : ℤ)
  | createCustomAccount (country email : Text)
  | createAccountLink (account refreshUrl returnUrl : Text)
  | createPaymentIntent (amountUsd : Decimal) (connectedAccount : Text)
  | createTransfer (amountUsd : Decimal) (destination : Text)
  | createPayout (amountUsd : Decimal) (connectedAccount : Text)

inductive CloudflareCall where
  | health (latencyMs : ℤ)
  | putWorkerScript (name body : Text)
  | r2PutObject (bucket key : Text) (body : Bytes)
  | registrarCheckDomain (name : Text)
  | registrarRegisterDomain (name : Text) (years : ℤ)

inductive PorkbunCall where
  | health (latencyMs : ℤ)
  | checkDomain (name : Text)
  | registerDomain (name : Text) (years : ℤ)
  | updateNameservers (name : Text) (ns : List Text)

inductive VercelCall where
  | health (latencyMs : ℤ)
  | createProject (name : Text) (framework : Option Text)
  | createDeployment (projectId : Text) (files : Json)
  | triggerDeployHook (hookUrl : Text)

inductive NetlifyCall where
  | health (latencyMs : ℤ)
  | createSite (name : Text)
  | uploadZipDeploy (siteId : Text) (zipBytes : Bytes)
  | getSite (siteId : Text)

/-- A call of some client, with what the client was made of. -/
inductive Operation where
  | polar (orgToken : Text) (call : PolarCall)
  | lemonSqueezy (apiKey : Text) (call : LemonSqueezyCall)
  | stripeConnect (secretKey : Text) (call : StripeConnectCall)
  | cloudflare (apiToken accountId : Text) (call : CloudflareCall)
  | porkbun (apiKey secretKey : Text) (call : PorkbunCall)
  | vercel (pat plan : Text) (call : VercelCall)
  | netlify (pat : Text) (call : NetlifyCall)

def Operation.host : Operation → Text
  | .polar .. => text "api.polar.sh"
  | .lemonSqueezy .. => text "api.lemonsqueezy.com"
  | .stripeConnect .. => text "api.stripe.com"
  | .cloudflare .. => text "api.cloudflare.com"
  | .porkbun .. => text "api.porkbun.com"
  | .vercel .. => text "api.vercel.com"
  | .netlify .. => text "api.netlify.com"

def Operation.isHealth : Operation → Bool
  | .polar _ (.health _) | .lemonSqueezy _ (.health _) | .stripeConnect _ (.health _)
  | .cloudflare _ _ (.health _) | .porkbun _ _ (.health _) | .vercel _ _ (.health _)
  | .netlify _ (.health _) => true
  | _ => false

def ignored {α : Type} (x : Calling α) : Calling Unit := do
  let _ ← x

section Run
variable (net : Network)

def PolarCall.run (t : Text) : PolarCall → Calling Unit
  | .health latencyMs => ignored (Polar.health net t latencyMs)
  | .createProduct name price recurring => ignored (Polar.createProduct net t name price recurring)
  | .createCheckout product url => ignored (Polar.createCheckout net t product url)
  | .listPayouts => ignored (Polar.listPayouts net t)

def LemonSqueezyCall.run (k : Text) : LemonSqueezyCall → Calling Unit
  | .health latencyMs => ignored (LemonSqueezy.health net k latencyMs)
  | .createProduct name store => ignored (LemonSqueezy.createProduct net k name store)
  | .createVariant product price => ignored (LemonSqueezy.createVariant net k product price)
  | .createCheckout variant store => ignored (LemonSqueezy.createCheckout net k variant store)
  | .listSubscriptions => ignored (LemonSqueezy.listSubscriptions net k)

def StripeConnectCall.run (c : BaseChannelClient) : StripeConnectCall → Calling Unit
  | .health latencyMs => ignored (StripeConnect.health net c latencyMs)
  | .createCustomAccount country email =>
    ignored (StripeConnect.createCustomAccount net c country email)
  | .createAccountLink account refreshUrl returnUrl =>
    ignored (StripeConnect.createAccountLink net c account refreshUrl returnUrl)
  | .createPaymentIntent amount connected =>
    ignored (StripeConnect.createPaymentIntent net c amount connected)
  | .createTransfer amount destination =>
    ignored (StripeConnect.createTransfer net c amount destination)
  | .createPayout amount connected => ignored (StripeConnect.createPayout net c amount connected)

def CloudflareCall.run (t account : Text) : CloudflareCall → Calling Unit
  | .health latencyMs => ignored (Cloudflare.health net t latencyMs)
  | .putWorkerScript name body => ignored (Cloudflare.putWorkerScript net t account name body)
  | .r2PutObject bucket key body => Cloudflare.r2PutObject net t account bucket key body
  | .registrarCheckDomain name => ignored (Cloudflare.registrarCheckDomain net t account name)
  | .registrarRegisterDomain name years =>
    ignored (Cloudflare.registrarRegisterDomain net t account name years)

def PorkbunCall.run (k secret : Text) : PorkbunCall → Calling Unit
  | .health latencyMs => ignored (Porkbun.health net k secret latencyMs)
  | .checkDomain name => ignored (Porkbun.checkDomain net k secret name)
  | .registerDomain name years => ignored (Porkbun.registerDomain net k secret name years)
  | .updateNameservers name ns => ignored (Porkbun.updateNameservers net k secret name ns)

def VercelCall.run (c : BaseChannelClient) : VercelCall → Calling Unit
  | .health latencyMs => ignored (Vercel.health net c latencyMs)
  | .createProject name framework => ignored (Vercel.createProject net c name framework)
  | .createDeployment project files => ignored (Vercel.createDeployment net c project files)
  | .triggerDeployHook hookUrl => ignored (Vercel.triggerDeployHook net hookUrl)

def NetlifyCall.run (t : Text) : NetlifyCall → Calling Unit
  | .health latencyMs => ignored (Netlify.health net t latencyMs)
  | .createSite name => ignored (Netlify.createSite net t name)
  | .uploadZipDeploy site bytes => ignored (Netlify.uploadZipDeploy net t site bytes)
  | .getSite site => ignored (Netlify.getSite net t site)

def Operation.run : Operation → Calling Unit
  | .polar orgToken call => call.run net orgToken
  | .lemonSqueezy apiKey call => call.run net apiKey
  | .stripeConnect secretKey call => do call.run net (← attempt id (stripeConnectClient secretKey))
  | .cloudflare apiToken accountId call => call.run net apiToken accountId
  | .porkbun apiKey secretKey call => call.run net apiKey secretKey
  | .vercel pat plan call => do call.run net (← attempt id (vercelClient pat plan))
  | .netlify pat call => call.run net pat

end Run

def Accepted (net : Network) (sent : List Request) : Prop :=
  ∃ response, net.answer sent = .ok response ∧ net.statusError response.status = none

def Bare (r : Request) : Prop := r.headers = [] ∧ r.body = .empty

section Rules
variable {net : Network} {α : Type} {good : Request → Prop} {returns : List Request → Prop}

/-- The call raises before it sends anything, or it sends one request, a good one, and
    returns only if `returns` holds of what was sent then. -/
def OneRequest (good : Request → Prop) (returns : List Request → Prop) (x : Calling α) : Prop :=
  ∀ sent, (∃ e, outcome x sent = (.error e, sent)) ∨
    ∃ r, good r ∧ after x sent = sent ++ [r] ∧
      ∀ a, (outcome x sent).1 = .ok a → returns (sent ++ [r])

theorem oneRequest_attempt {β : Type} {x : Except ChannelError β} {f : β → Calling α}
    (h : ∀ b, x = .ok b → OneRequest good returns (f b)) :
    OneRequest good returns (attempt id x >>= f) := by
  intro sent
  cases x with
  | error e => exact .inl ⟨e, rfl⟩
  | ok b => exact h b rfl sent

theorem outcome_send (r : Request) (sent : List Request) :
    outcome (send net r) sent = (net.answer (sent ++ [r]), sent ++ [r]) := by
  have answers : outcome (send net r) sent =
      outcome (attempt id (net.answer (sent ++ [r])) : Calling Response) (sent ++ [r]) := rfl
  rw [answers]
  rcases net.answer (sent ++ [r]) with e | response
  · rfl
  · rfl

theorem after_send (r : Request) {k : Response → Calling α}
    (quiet : ∀ response t, after (k response) t = t) (sent : List Request) :
    after (send net r >>= k) sent = sent ++ [r] := by
  rw [after, outcome_bind, outcome_send]
  rcases net.answer (sent ++ [r]) with e | response
  · rfl
  · exact quiet response _

theorem oneRequest_send {r : Request} (fine : good r) {k : Response → Calling α}
    (quiet : ∀ response t, after (k response) t = t)
    (checked : ∀ response t a, net.answer t = .ok response →
      (outcome (k response) t).1 = .ok a → returns t) :
    OneRequest good returns (send net r >>= k) := by
  intro sent
  refine .inr ⟨r, fine, after_send r quiet sent, ?_⟩
  intro a returned
  rw [outcome_bind, outcome_send] at returned
  rcases answered : net.answer (sent ++ [r]) with e | response
  · rw [answered] at returned
    cases returned
  · rw [answered] at returned
    exact checked response _ a answered returned

theorem after_responseJson (response : Response) (t : List Request) :
    after (responseJson response) t = t := by
  unfold responseJson
  split
  · rfl
  · rfl

theorem after_raiseForStatus (response : Response) (t : List Request) :
    after (raiseForStatus net response) t = t := by
  unfold raiseForStatus
  split
  · rfl
  · rfl

theorem status_of_returned {response : Response} {t : List Request} {u : Unit}
    (returned : (outcome (raiseForStatus net response) t).1 = .ok u) :
    net.statusError response.status = none := by
  rcases status : net.statusError response.status with _ | msg
  · rfl
  · rw [raiseForStatus, status] at returned
    cases returned

/- A continuation that looks at the status first. -/
theorem checked_bind {f : Response → Calling α} (quiet : ∀ response t, after (f response) t = t)
    (response : Response) (t : List Request) :
    after (raiseForStatus net response >>= fun _ => f response) t = t ∧
      ∀ a, (outcome (raiseForStatus net response >>= fun _ => f response) t).1 = .ok a →
        net.statusError response.status = none := by
  rcases status : net.statusError response.status with _ | msg
  · have passes : outcome (raiseForStatus net response) t = (.ok (), t) := by
      rw [raiseForStatus, status]
      rfl
    rw [after, outcome_bind, passes]
    exact ⟨quiet response t, fun _ _ => rfl⟩
  · have raises : outcome (raiseForStatus net response) t = (.error (.httpError msg), t) := by
      rw [raiseForStatus, status]
      rfl
    rw [after, outcome_bind, raises]
    refine ⟨rfl, ?_⟩
    intro a returned
    cases returned

theorem oneRequest_checked {r : Request} (fine : good r) {f : Response → Calling α}
    (quiet : ∀ response t, after (f response) t = t) :
    OneRequest good (Accepted net) (do
      let response ← send net r
      raiseForStatus net response
      f response) := by
  apply oneRequest_send fine
  · exact fun response t => (checked_bind quiet response t).1
  · exact fun response t a answered returned =>
      ⟨response, answered, (checked_bind quiet response t).2 a returned⟩

theorem oneRequest_requestJson {r : Request} (fine : good r) :
    OneRequest good (Accepted net) (requestJson net r) := oneRequest_checked fine after_responseJson

theorem oneRequest_ignored {x : Calling α} (h : OneRequest good returns x) :
    OneRequest good returns (ignored x) := by
  intro sent
  have same : after (ignored x) sent = after x sent := after_ignored x () sent
  rcases h sent with ⟨e, raised⟩ | ⟨r, fine, one, accepted⟩
  · left
    refine ⟨e, ?_⟩
    rw [ignored, outcome_bind, raised]
  · refine .inr ⟨r, fine, same.trans one, ?_⟩
    intro a returned
    rw [ignored, outcome_bind] at returned
    rcases run : outcome x sent with ⟨e | b, t⟩
    · rw [run] at returned
      cases returned
    · exact accepted b (congrArg Prod.fst run)

theorem oneRequest_mono {good' : Request → Prop} {returns' : List Request → Prop} {x : Calling α}
    (h : OneRequest good returns x) (le : ∀ r, good r → good' r)
    (weaker : ∀ sent, returns sent → returns' sent) : OneRequest good' returns' x := by
  intro sent
  rcases h sent with raised | ⟨r, fine, one, accepted⟩
  · exact .inl raised
  · exact .inr ⟨r, le r fine, one, fun a returned => weaker _ (accepted a returned)⟩

/- A health check sends its ping, and may return whatever comes of it. -/
theorem oneRequest_health {c : BaseChannelClient} {r : Request} (fine : good r)
    {ping : Calling Unit} (pings : ∀ sent, after ping sent = sent ++ [r]) (latencyMs : ℤ) :
    OneRequest good (fun _ => True) (healthOf c ping latencyMs) := by
  intro sent
  refine .inr ⟨r, fine, ?_, fun _ _ => trivial⟩
  have pinged := pings sent
  rw [healthOf, after, Transactions.outcome_tryCatch, outcome_bind]
  rcases run : outcome ping sent with ⟨e | done, t⟩
  · rw [after, run] at pinged
    cases pinged
    cases e <;> rfl
  · rw [after, run] at pinged
    cases pinged
    rfl

end Rules

def AtHost (host : Text) (r : Request) : Prop :=
  ∃ rest, r.url = text "https://" ++ (host ++ slash :: rest)

/-- What hosts are made of here: no character of them ends a host or changes in lower case. -/
def isHostChar (c : CodePoint) : Bool := isAsciiDigit c || (0x61 ≤ c.val && c.val ≤ 0x7A) || c ∈ text ".-"

structure PlainHost (host : Text) : Prop where
  nonempty : host ≠ []
  plain : ∀ c ∈ host, isHostChar c = true

theorem hostChar_differs {c : CodePoint} (plain : isHostChar c = true) {d : CodePoint}
    (other : isHostChar d = false) : c ≠ d := by
  rintro rfl
  cases other.symm.trans plain

section Plain
variable {host : Text} (plain : PlainHost host)
include plain

theorem takeWhile_host {p : CodePoint → Bool} (passes : ∀ c, isHostChar c = true → p c = true) :
    host.takeWhile p = host :=
  List.takeWhile_eq_self_iff.mpr fun c mem => passes c (plain.plain c mem)

theorem dropWhile_host {p : CodePoint → Bool} (passes : ∀ c, isHostChar c = true → p c = true) :
    host.dropWhile p = [] :=
  List.dropWhile_eq_nil_iff.mpr fun c mem => passes c (plain.plain c mem)

omit plain in
theorem passes_ne {d : CodePoint} (other : isHostChar d = false) (c : CodePoint)
    (hostChar : isHostChar c = true) : decide (c ≠ d) = true :=
  decide_eq_true (hostChar_differs hostChar other)

omit plain in
theorem passes_notMem {ds : List CodePoint} (others : (ds.all fun d => !isHostChar d) = true)
    (c : CodePoint) (hostChar : isHostChar c = true) : decide (c ∉ ds) = true := by
  apply decide_eq_true
  intro mem
  have other := List.all_eq_true.mp others c mem
  rw [hostChar] at other
  cases other

theorem sanitized_https (rest : Text) : ∃ rest',
    sanitized (text "https://" ++ (host ++ slash :: rest)) =
      text "https://" ++ (host ++ slash :: rest') := by
  have filtered : host.filter (fun c => c ∉ [ofChar '\t', ofChar '\r', ofChar '\n']) = host :=
    List.filter_eq_self.mpr fun c mem => passes_notMem (by decide) c (plain.plain c mem)
  refine ⟨rest.filter fun c => c ∉ [ofChar '\t', ofChar '\r', ofChar '\n'], ?_⟩
  have first : sanitized (text "https://" ++ (host ++ slash :: rest)) = text "https://" ++
      (host ++ slash :: rest).filter fun c => c ∉ [ofChar '\t', ofChar '\r', ofChar '\n'] := rfl
  rw [first, List.filter_append, filtered]
  rfl

theorem netlocOf_https (rest : Text) :
    netlocOf (text "https://" ++ (host ++ slash :: rest)) = host := by
  obtain ⟨rest', cleaned⟩ := sanitized_https plain rest
  have schemeless : dropScheme (text "https://" ++ (host ++ slash :: rest')) =
      slash :: slash :: (host ++ slash :: rest') := rfl
  rw [netlocOf, cleaned, schemeless]
  dsimp only
  rw [if_pos ⟨rfl, rfl⟩]
  have inside : ∀ c ∈ host, decide (c ∉ [ofChar '/', ofChar '?', ofChar '#']) = true :=
    fun c mem => passes_notMem (by decide) c (plain.plain c mem)
  rw [List.takeWhile_append_of_pos inside, List.takeWhile_cons_of_neg (by decide), List.append_nil]

theorem hostinfo_plain : hostinfo host = host := by
  have user : host.rtakeWhile (· ≠ ofChar '@') = host :=
    List.rtakeWhile_eq_self_iff.mpr fun c mem => passes_ne (by decide) c (plain.plain c mem)
  have bracket : host.dropWhile (· ≠ ofChar '[') = [] := dropWhile_host plain (passes_ne (by decide))
  rw [hostinfo, user, bracket]
  exact takeWhile_host plain (passes_ne (by decide))

theorem lower_plain (data : StrData) : data.lower host = host := by
  have each : ∀ c ∈ host, c.val < 0x80 ∧ lowerAscii c = c := by
    intro c mem
    have below : c.val < 0x80 ∧ ¬ (0x41 ≤ c.val ∧ c.val ≤ 0x5A) := by
      have hostChar := plain.plain c mem
      simp only [isHostChar, isAsciiDigit, Bool.or_eq_true, Bool.and_eq_true,
        decide_eq_true_eq] at hostChar
      rcases hostChar with (digit | letter) | sign
      · omega
      · omega
      · have signs : c = ofChar '.' ∨ c = ofChar '-' := by simpa [text] using sign
        rcases signs with rfl | rfl
        · decide
        · decide
    exact ⟨below.1, if_neg below.2⟩
  rw [data.lower_ascii host fun c mem => (each c mem).1]
  exact (List.map_congr_left fun c mem => (each c mem).2).trans (List.map_id _)

theorem hostname_plain (data : StrData) : hostname data host = some host := by
  rw [hostname, hostinfo_plain plain]
  rw [if_neg plain.nonempty, takeWhile_host plain (passes_ne (by decide)),
    dropWhile_host plain (passes_ne (by decide)), lower_plain plain data, List.append_nil]

end Plain

theorem urlHost_at {data : UrlData} {host : Text} (plain : PlainHost host)
    (accepts : data.acceptsNetloc host = true) {r : Request} (home : AtHost host r) :
    urlHost data r.url = .ok host := by
  obtain ⟨rest, url⟩ := home
  have unbracketed : decide (ofChar '[' ∈ host) = decide (ofChar ']' ∈ host) := by
    have absent : ∀ d, isHostChar d = false → d ∉ host := by
      intro d other mem
      exact hostChar_differs (plain.plain d mem) other rfl
    rw [decide_eq_false (absent _ (by decide)), decide_eq_false (absent _ (by decide))]
  rw [urlHost, urlparse, url, netlocOf_https plain, if_pos ⟨unbracketed, accepts⟩]
  change Except.ok ((hostname data.toStrData host).getD []) = _
  rw [hostname_plain plain data.toStrData]
  rfl

structure HasHost (c : BaseChannelClient) (host : Text) : Prop where
  at_host : ∃ path, c.baseUrl = text "https://" ++ (host ++ path) ∧
    (path = [] ∨ path.head? = some slash)
  noSlash : c.baseUrl.rdropWhile (· = slash) = c.baseUrl

section Clients
variable {net : Network} {c : BaseChannelClient} {host : Text} (has : HasHost c host)
include has

theorem append_atHost (path : Text) (method : HttpMethod) (headers : List (Text × Text))
    (body : Body) : AtHost host ⟨method, c.baseUrl ++ slash :: path, headers, body⟩ := by
  obtain ⟨base, url, rooted⟩ := has.at_host
  rw [AtHost, url]
  rcases rooted with rfl | rooted
  · exact ⟨path, by simp⟩
  · match base with
    | [] => cases rooted
    | first :: base =>
      cases rooted
      exact ⟨base ++ slash :: path, by simp⟩

theorem joinPath_atHost (path : Text) (method : HttpMethod) (headers : List (Text × Text))
    (body : Body) : AtHost host ⟨method, joinPath c.baseUrl path, headers, body⟩ := by
  rw [joinPath, has.noSlash]
  exact append_atHost has _ method headers body

theorem getJson_home (path : Text) :
    OneRequest (AtHost host) (Accepted net) (getJson net c path) :=
  oneRequest_checked (joinPath_atHost has _ _ _ _) after_responseJson

theorem postJson_home (path : Text) (json : Json) :
    OneRequest (AtHost host) (Accepted net) (postJson net c path json) :=
  oneRequest_checked (joinPath_atHost has _ _ _ _) after_responseJson

theorem pathHealth_home (path : Text) (latencyMs : ℤ) :
    OneRequest (AtHost host) (fun _ => True) (pathHealth net c path latencyMs) := by
  apply oneRequest_health (joinPath_atHost has path .get c.authHeaders .empty)
  intro sent
  have same : after (do let _ ← getJson net c path : Calling Unit) sent =
      after (getJson net c path) sent := after_ignored (getJson net c path) () sent
  rw [same]
  exact after_send _ (fun response t => (checked_bind after_responseJson response t).1) sent

theorem requestJson_home (path : Text) (method : HttpMethod) (headers : List (Text × Text))
    (body : Body) : OneRequest (AtHost host) (Accepted net)
      (requestJson net ⟨method, c.baseUrl ++ slash :: path, headers, body⟩) :=
  oneRequest_requestJson (append_atHost has path method headers body)

theorem ownHealth_home (path : Text) (method : HttpMethod) (headers : List (Text × Text))
    (body : Body) (latencyMs : ℤ) : OneRequest (AtHost host) (fun _ => True)
      (healthOf c (do
        let r ← send net ⟨method, c.baseUrl ++ slash :: path, headers, body⟩
        raiseForStatus net r) latencyMs) :=
  oneRequest_health (append_atHost has path method headers body)
    (after_send _ after_raiseForStatus) latencyMs

end Clients

/-- What a method of a client sends and when it returns; a health check reports what
    failed instead of raising. -/
abbrev Ends (net : Network) (host : Text) (isHealth : Bool) (x : Calling Unit) : Prop :=
  OneRequest (fun r => AtHost host r ∨ Bare r) (fun sent => isHealth = true ∨ Accepted net sent) x

section Methods
variable {net : Network} {host : Text}

theorem ends_of_home {α : Type} {x : Calling α}
    (h : OneRequest (AtHost host) (Accepted net) x) (isHealth : Bool) :
    Ends net host isHealth (ignored x) :=
  oneRequest_mono (oneRequest_ignored h) (fun _ => .inl) fun _ => .inr

theorem ends_of_health {x : Calling ChannelStatus}
    (h : OneRequest (AtHost host) (fun _ => True) x) : Ends net host true (ignored x) :=
  oneRequest_mono (oneRequest_ignored h) (fun _ => .inl) fun _ _ => .inl rfl

theorem ends_of_cents {α : Type} {amount : Decimal} {f : ℤ → Calling α}
    (h : ∀ cents, OneRequest (AtHost host) (Accepted net) (f cents)) (isHealth : Bool) :
    Ends net host isHealth (ignored (attempt id (amountCents amount) >>= f)) :=
  ends_of_home (oneRequest_attempt fun cents _ => h cents) isHealth

theorem polar_ends (t : Text) (call : PolarCall) :
    Ends net (text "api.polar.sh") (Operation.polar t call).isHealth (call.run net t) := by
  have has : HasHost (polarClient t) (text "api.polar.sh") :=
    ⟨⟨text "/v1", rfl, .inr rfl⟩, rfl⟩
  cases call with
  | health latencyMs => exact ends_of_health (pathHealth_home has _ latencyMs)
  | createProduct name price recurring => exact ends_of_cents (fun _ => postJson_home has _ _) _
  | createCheckout product url => exact ends_of_home (postJson_home has _ _) _
  | listPayouts => exact ends_of_home (getJson_home has _) _

theorem lemonSqueezy_ends (k : Text) (call : LemonSqueezyCall) :
    Ends net (text "api.lemonsqueezy.com") (Operation.lemonSqueezy k call).isHealth
      (call.run net k) := by
  have has : HasHost (lemonSqueezyClient k) (text "api.lemonsqueezy.com") :=
    ⟨⟨text "/v1", rfl, .inr rfl⟩, rfl⟩
  cases call with
  | health latencyMs => exact ends_of_health (pathHealth_home has _ latencyMs)
  | createProduct name store => exact ends_of_home (postJson_home has _ _) _
  | createVariant product price => exact ends_of_cents (fun _ => postJson_home has _ _) _
  | createCheckout variant store => exact ends_of_home (postJson_home has _ _) _
  | listSubscriptions => exact ends_of_home (getJson_home has _) _

theorem stripeConnect_ends (k : Text) (call : StripeConnectCall) :
    Ends net (text "api.stripe.com") (Operation.stripeConnect k call).isHealth
      ((Operation.stripeConnect k call).run net) := by
  apply oneRequest_attempt
  intro c made
  have has : HasHost c (text "api.stripe.com") := by
    unfold stripeConnectClient at made
    split at made
    · cases made
      exact ⟨⟨text "/v1", rfl, .inr rfl⟩, rfl⟩
    · cases made
  cases call with
  | health latencyMs => exact ends_of_health (ownHealth_home has (text "balance") _ _ _ latencyMs)
  | createCustomAccount country email =>
    exact ends_of_home (requestJson_home has (text "accounts") _ _ _) _
  | createAccountLink account refreshUrl returnUrl =>
    exact ends_of_home (requestJson_home has (text "account_links") _ _ _) _
  | createPaymentIntent amount connected =>
    exact ends_of_cents (fun _ => requestJson_home has (text "payment_intents") _ _ _) _
  | createTransfer amount destination =>
    exact ends_of_cents (fun _ => requestJson_home has (text "transfers") _ _ _) _
  | createPayout amount connected =>
    exact ends_of_cents (fun _ => requestJson_home has (text "payouts") _ _ _) _

theorem cloudflare_ends (t account : Text) (call : CloudflareCall) :
    Ends net (text "api.cloudflare.com") (Operation.cloudflare t account call).isHealth
      (call.run net t account) := by
  have has : HasHost (cloudflareClient t) (text "api.cloudflare.com") :=
    ⟨⟨text "/client/v4", rfl, .inr rfl⟩, rfl⟩
  cases call with
  | health latencyMs => exact ends_of_health (pathHealth_home has _ latencyMs)
  | putWorkerScript name body =>
    apply ends_of_home
    unfold Cloudflare.putWorkerScript
    dsimp only
    split
    · exact fun sent => .inl ⟨_, rfl⟩
    · rename_i bytes encoded
      have url : (cloudflareClient t).baseUrl ++ text "/accounts/" ++ account ++
          text "/workers/scripts/" ++ name = (cloudflareClient t).baseUrl ++
          slash :: (text "accounts/" ++ account ++ text "/workers/scripts/" ++ name) := by
        simp only [List.append_assoc]
        rfl
      rw [url]
      exact requestJson_home has _ _ _ _
  | r2PutObject bucket key body =>
    have url : (cloudflareClient t).baseUrl ++ text "/accounts/" ++ account ++
        text "/r2/buckets/" ++ bucket ++ text "/objects/" ++ key = (cloudflareClient t).baseUrl ++
        slash :: (text "accounts/" ++ account ++ text "/r2/buckets/" ++ bucket ++
          text "/objects/" ++ key) := by
      simp only [List.append_assoc]
      rfl
    have sends : OneRequest (AtHost (text "api.cloudflare.com")) (Accepted net)
        (Cloudflare.r2PutObject net t account bucket key body) := by
      unfold Cloudflare.r2PutObject
      dsimp only
      rw [url]
      apply oneRequest_send (append_atHost has _ _ _ _) (after_raiseForStatus)
      intro response sent a answered returned
      exact ⟨response, answered, status_of_returned returned⟩
    exact oneRequest_mono sends (fun _ => .inl) fun _ => .inr
  | registrarCheckDomain name => exact ends_of_home (getJson_home has _) _
  | registrarRegisterDomain name years => exact ends_of_home (postJson_home has _ _) _

theorem porkbun_ends (k secret : Text) (call : PorkbunCall) :
    Ends net (text "api.porkbun.com") (Operation.porkbun k secret call).isHealth
      (call.run net k secret) := by
  have has : HasHost porkbunClient (text "api.porkbun.com") :=
    ⟨⟨text "/api/json/v3", rfl, .inr rfl⟩, rfl⟩
  cases call with
  | health latencyMs => exact ends_of_health (ownHealth_home has (text "ping") _ _ _ latencyMs)
  | checkDomain name => exact ends_of_home (postJson_home has _ _) _
  | registerDomain name years => exact ends_of_home (postJson_home has _ _) _
  | updateNameservers name ns => exact ends_of_home (postJson_home has _ _) _

theorem vercel_ends (t plan : Text) (call : VercelCall) :
    Ends net (text "api.vercel.com") (Operation.vercel t plan call).isHealth
      ((Operation.vercel t plan call).run net) := by
  apply oneRequest_attempt
  intro c made
  have has : HasHost c (text "api.vercel.com") := by
    unfold vercelClient at made
    split at made
    · cases made
    · cases made
      exact ⟨⟨[], rfl, .inl rfl⟩, rfl⟩
  cases call with
  | health latencyMs => exact ends_of_health (pathHealth_home has _ latencyMs)
  | createProject name framework => exact ends_of_home (postJson_home has _ _) _
  | createDeployment project files => exact ends_of_home (postJson_home has _ _) _
  | triggerDeployHook hookUrl =>
    have bare : OneRequest Bare (Accepted net) (Vercel.triggerDeployHook net hookUrl) :=
      oneRequest_requestJson ⟨rfl, rfl⟩
    exact oneRequest_mono (oneRequest_ignored bare) (fun _ => .inr) fun _ => .inr

theorem netlify_ends (t : Text) (call : NetlifyCall) :
    Ends net (text "api.netlify.com") (Operation.netlify t call).isHealth (call.run net t) := by
  have has : HasHost (netlifyClient t) (text "api.netlify.com") :=
    ⟨⟨text "/api/v1", rfl, .inr rfl⟩, rfl⟩
  cases call with
  | health latencyMs => exact ends_of_health (pathHealth_home has _ latencyMs)
  | createSite name => exact ends_of_home (postJson_home has _ _) _
  | uploadZipDeploy site bytes =>
    have url : (netlifyClient t).baseUrl ++ text "/sites/" ++ site ++ text "/deploys" =
        (netlifyClient t).baseUrl ++ slash :: (text "sites/" ++ site ++ text "/deploys") := by
      simp only [List.append_assoc]
      rfl
    apply ends_of_home
    unfold Netlify.uploadZipDeploy
    dsimp only
    rw [url]
    exact requestJson_home has _ _ _ _
  | getSite site => exact ends_of_home (getJson_home has _) _

end Methods

theorem host_plain (op : Operation) : PlainHost op.host := by
  have plain {host : Text} (some : host.isEmpty = false) (each : host.all isHostChar = true) :
      PlainHost host := ⟨List.isEmpty_eq_false_iff.mp some, List.all_eq_true.mp each⟩
  cases op with
  | polar => exact plain rfl rfl
  | lemonSqueezy => exact plain rfl rfl
  | stripeConnect => exact plain rfl rfl
  | cloudflare => exact plain rfl rfl
  | porkbun => exact plain rfl rfl
  | vercel => exact plain rfl rfl
  | netlify => exact plain rfl rfl

/-- Whatever its arguments, a call on a client raises before it sends anything or sends
    one request; the request goes to the host of the channel's API, or, for a deploy
    hook, carries nothing but its address; and except in a health check the call
    returns only if that request was answered with success. -/
theorem requests_stay_home {data : UrlData} {op : Operation}
    (accepts : data.acceptsNetloc op.host = true) (net : Network) (sent : List Request) :
    (∃ e, outcome (op.run net) sent = (.error e, sent)) ∨
    ∃ r, after (op.run net) sent = sent ++ [r] ∧
      (urlHost data r.url = .ok op.host ∨ Bare r) ∧
      ((outcome (op.run net) sent).1 = .ok () → op.isHealth = true ∨ Accepted net (sent ++ [r])) := by
  have ends : Ends net op.host op.isHealth (op.run net) := by
    cases op with
    | polar t call => exact polar_ends t call
    | lemonSqueezy k call => exact lemonSqueezy_ends k call
    | stripeConnect k call => exact stripeConnect_ends k call
    | cloudflare t account call => exact cloudflare_ends t account call
    | porkbun k secret call => exact porkbun_ends k secret call
    | vercel t plan call => exact vercel_ends t plan call
    | netlify t call => exact netlify_ends t call
  rcases ends sent with raised | ⟨r, fine, one, returns⟩
  · exact .inl raised
  · refine .inr ⟨r, one, ?_, returns ()⟩
    rcases fine with home | bare
    · exact .inl (urlHost_at (host_plain op) accepts home)
    · exact .inr bare

theorem requests_stay_home_at_sign :
    let op := Operation.cloudflare (text "t") (text "a")
      (.putWorkerScript (text "@evil.example/") (text "x"))
    let net : Network := ⟨fun _ => .ok ⟨200, some .null⟩, fun _ => none⟩
    (∃ e, outcome (op.run net) [] = (.error e, [])) ∨
    ∃ r, after (op.run net) [] = [r] ∧ (urlHost asciiUrlData r.url = .ok op.host ∨ Bare r) ∧
      ((outcome (op.run net) []).1 = .ok () → op.isHealth = true ∨ Accepted net [r]) :=
  requests_stay_home (by decide) _ []

end Channels
