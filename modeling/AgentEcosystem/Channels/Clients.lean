import AgentEcosystem.Channels.BaseClient

/-!
The clients of the channels. A method is one request to the API of its channel; only
the deploy hook of Vercel has its address from the caller.
-/
namespace Channels
open DecimalArithmetic JsonText Raising UnicodeText

def jsonObj (members : List (String × Json)) : Json := .obj (members.map fun m => (text m.1, m.2))

section Clients
variable (net : Network)

/-- A request whose answer is read as JSON, without the helpers of the base class. -/
def requestJson (r : Request) : Calling Json := do
  let response ← send net r
  raiseForStatus net response
  responseJson response

def polarClient (orgToken : Text) : BaseChannelClient :=
  ⟨text "polar", text "https://api.polar.sh/v1", bearer orgToken⟩

namespace Polar
variable (orgToken : Text)

def health (latencyMs : ℤ) : Calling ChannelStatus :=
  pathHealth net (polarClient orgToken) (text "/organizations/me") latencyMs

def createProduct (name : Text) (priceUsd : Decimal) (isRecurring : Bool) : Calling Json := do
  let cents ← attempt id (amountCents priceUsd)
  let kind := if isRecurring then "recurring" else "one_time"
  postJson net (polarClient orgToken) (text "/products") (jsonObj
    [("name", .str name),
      ("prices", .arr [jsonObj [("amount_cents", .int cents), ("currency", .str (text "USD")),
        ("type", .str (text kind))]])])

def createCheckout (productId successUrl : Text) : Calling Json :=
  postJson net (polarClient orgToken) (text "/checkouts") (jsonObj
    [("product_id", .str productId), ("success_url", .str successUrl)])

def listPayouts : Calling Json := getJson net (polarClient orgToken) (text "/payouts")

end Polar

def lemonSqueezyClient (apiKey : Text) : BaseChannelClient :=
  ⟨text "lemonsqueezy", text "https://api.lemonsqueezy.com/v1",
    bearer apiKey ++ [(text "Accept", text "application/vnd.api+json"),
      (text "Content-Type", text "application/vnd.api+json")]⟩

namespace LemonSqueezy
variable (apiKey : Text)

def health (latencyMs : ℤ) : Calling ChannelStatus :=
  pathHealth net (lemonSqueezyClient apiKey) (text "/users/me") latencyMs

def related (kind : String) (id : Text) : Json :=
  jsonObj [("data", jsonObj [("type", .str (text kind)), ("id", .str id)])]

def createProduct (name storeId : Text) : Calling Json :=
  postJson net (lemonSqueezyClient apiKey) (text "/products") (jsonObj
    [("data", jsonObj [("type", .str (text "products")), ("attributes", jsonObj [("name", .str name)]),
      ("relationships", jsonObj [("store", related "stores" storeId)])])])

def createVariant (productId : Text) (priceUsd : Decimal) : Calling Json := do
  let cents ← attempt id (amountCents priceUsd)
  postJson net (lemonSqueezyClient apiKey) (text "/variants") (jsonObj
    [("data", jsonObj [("type", .str (text "variants")),
      ("attributes", jsonObj [("price", .int cents)]),
      ("relationships", jsonObj [("product", related "products" productId)])])])

def createCheckout (variantId storeId : Text) : Calling Json :=
  postJson net (lemonSqueezyClient apiKey) (text "/checkouts") (jsonObj
    [("data", jsonObj [("type", .str (text "checkouts")),
      ("relationships", jsonObj [("variant", related "variants" variantId),
        ("store", related "stores" storeId)])])])

def listSubscriptions : Calling Json :=
  getJson net (lemonSqueezyClient apiKey) (text "/subscriptions")

end LemonSqueezy

/-- The constructor refuses a key that is neither empty nor of one of the two kinds. -/
def stripeConnectClient (secretKey : Text) : Except ChannelError BaseChannelClient :=
  if (text "sk_live_").isPrefixOf secretKey || (text "sk_test_").isPrefixOf secretKey ||
      secretKey == [] then
    .ok ⟨text "stripe_connect", text "https://api.stripe.com/v1", bearer secretKey⟩
  else .error .valueError

namespace StripeConnect
variable (c : BaseChannelClient)

def health (latencyMs : ℤ) : Calling ChannelStatus :=
  healthOf c (do
    let r ← send net { method := .get, url := c.baseUrl ++ text "/balance", headers := c.authHeaders }
    raiseForStatus net r) latencyMs

def postForm (endpoint : String) (connected : List (Text × Text)) (fields : List (String × Json)) :
    Calling Json :=
  requestJson net
    { method := .post
      url := c.baseUrl ++ text endpoint
      headers := c.authHeaders ++ connected
      body := .form (fields.map fun f => (text f.1, f.2)) }

def createCustomAccount (country email : Text) : Calling Json :=
  postForm net c "/accounts" []
    [("type", .str (text "custom")), ("country", .str country), ("email", .str email)]

def createAccountLink (account refreshUrl returnUrl : Text) : Calling Json :=
  postForm net c "/account_links" []
    [("account", .str account), ("refresh_url", .str refreshUrl), ("return_url", .str returnUrl),
      ("type", .str (text "account_onboarding"))]

def createPaymentIntent (amountUsd : Decimal) (connectedAccount : Text) : Calling Json := do
  let cents ← attempt id (amountCents amountUsd)
  postForm net c "/payment_intents" [(text "Stripe-Account", connectedAccount)]
    [("amount", .int cents), ("currency", .str (text "usd"))]

def createTransfer (amountUsd : Decimal) (destination : Text) : Calling Json := do
  let cents ← attempt id (amountCents amountUsd)
  postForm net c "/transfers" []
    [("amount", .int cents), ("currency", .str (text "usd")), ("destination", .str destination)]

def createPayout (amountUsd : Decimal) (connectedAccount : Text) : Calling Json := do
  let cents ← attempt id (amountCents amountUsd)
  postForm net c "/payouts" [(text "Stripe-Account", connectedAccount)]
    [("amount", .int cents), ("currency", .str (text "usd"))]

end StripeConnect

def cloudflareClient (apiToken : Text) : BaseChannelClient :=
  ⟨text "cloudflare", text "https://api.cloudflare.com/client/v4", bearer apiToken⟩

namespace Cloudflare
variable (apiToken accountId : Text)

def health (latencyMs : ℤ) : Calling ChannelStatus :=
  pathHealth net (cloudflareClient apiToken) (text "/user/tokens/verify") latencyMs

def putWorkerScript (name body : Text) : Calling Json := do
  let c := cloudflareClient apiToken
  match encode body with
  | none => throw .unicodeEncodeError
  | some bytes =>
    requestJson net
      { method := .put
        url := c.baseUrl ++ text "/accounts/" ++ accountId ++ text "/workers/scripts/" ++ name
        headers := c.authHeaders ++ [(text "Content-Type", text "application/javascript")]
        body := .content bytes }

def r2PutObject (bucket key : Text) (body : Bytes) : Calling Unit := do
  let c := cloudflareClient apiToken
  let r ← send net
    { method := .put
      url := c.baseUrl ++ text "/accounts/" ++ accountId ++ text "/r2/buckets/" ++ bucket ++
        text "/objects/" ++ key
      headers := c.authHeaders
      body := .content body }
  raiseForStatus net r

def domainPath (name : Text) : Text :=
  text "/accounts/" ++ accountId ++ text "/registrar/domains/" ++ name

def registrarCheckDomain (name : Text) : Calling Json :=
  getJson net (cloudflareClient apiToken) (domainPath accountId name)

def registrarRegisterDomain (name : Text) (years : ℤ) : Calling Json :=
  postJson net (cloudflareClient apiToken) (domainPath accountId name)
    (jsonObj [("years", .int years)])

end Cloudflare

def porkbunClient : BaseChannelClient :=
  ⟨text "porkbun", text "https://api.porkbun.com/api/json/v3",
    [(text "Content-Type", text "application/json")]⟩

namespace Porkbun
variable (apiKey secretKey : Text)

def creds : List (String × Json) := [("apikey", .str apiKey), ("secretapikey", .str secretKey)]

def health (latencyMs : ℤ) : Calling ChannelStatus :=
  healthOf porkbunClient (do
    let r ← send net
      { method := .post
        url := porkbunClient.baseUrl ++ text "/ping"
        headers := porkbunClient.authHeaders
        body := .json (jsonObj (creds apiKey secretKey)) }
    raiseForStatus net r) latencyMs

def checkDomain (name : Text) : Calling Json :=
  postJson net porkbunClient (text "/domain/checkDomain/" ++ name) (jsonObj (creds apiKey secretKey))

def registerDomain (name : Text) (years : ℤ) : Calling Json :=
  postJson net porkbunClient (text "/domain/create/" ++ name)
    (jsonObj (creds apiKey secretKey ++ [("years", .int years)]))

def updateNameservers (name : Text) (ns : List Text) : Calling Json :=
  postJson net porkbunClient (text "/domain/updateNs/" ++ name)
    (jsonObj (creds apiKey secretKey ++ [("ns", .arr (ns.map .str))]))

end Porkbun

/-- The constructor refuses every plan but one. -/
def vercelClient (pat plan : Text) : Except ChannelError BaseChannelClient :=
  if plan ≠ text "pro" then .error .valueError
  else .ok ⟨text "vercel", text "https://api.vercel.com", bearer pat⟩

namespace Vercel
variable (c : BaseChannelClient)

def health (latencyMs : ℤ) : Calling ChannelStatus := pathHealth net c (text "/v2/user") latencyMs

def createProject (name : Text) (framework : Option Text) : Calling Json :=
  postJson net c (text "/v9/projects")
    (jsonObj [("name", .str name), ("framework", (framework.map Json.str).getD .null)])

def createDeployment (projectId : Text) (files : Json) : Calling Json :=
  postJson net c (text "/v13/deployments") (jsonObj [("name", .str projectId), ("files", files)])

def triggerDeployHook (hookUrl : Text) : Calling Json :=
  requestJson net { method := .post, url := hookUrl }

end Vercel

def netlifyClient (pat : Text) : BaseChannelClient :=
  ⟨text "netlify", text "https://api.netlify.com/api/v1", bearer pat⟩

namespace Netlify
variable (pat : Text)

def health (latencyMs : ℤ) : Calling ChannelStatus :=
  pathHealth net (netlifyClient pat) (text "/user") latencyMs

def createSite (name : Text) : Calling Json :=
  postJson net (netlifyClient pat) (text "/sites") (jsonObj [("name", .str name)])

def uploadZipDeploy (siteId : Text) (zipBytes : Bytes) : Calling Json :=
  let c := netlifyClient pat
  requestJson net
    { method := .post
      url := c.baseUrl ++ text "/sites/" ++ siteId ++ text "/deploys"
      headers := c.authHeaders ++ [(text "Content-Type", text "application/zip")]
      body := .content zipBytes }

/-- The site that `get_site_url` picks a URL of. -/
def getSite (siteId : Text) : Calling Json :=
  getJson net (netlifyClient pat) (text "/sites/" ++ siteId)

end Netlify

end Clients

end Channels
