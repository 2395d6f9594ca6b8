import AgentEcosystem.Decimal.HasValue
import AgentEcosystem.Json.JsonText
import AgentEcosystem.Semantics.Raising
import Mathlib.Data.List.DropRight

/-!
What the channel clients share: requests to a network that may answer anything, and
the calls that send one and read its answer. The state of a call is what was sent so
far, and that stays sent when the call raises.
-/
namespace Channels
open DecimalArithmetic JsonText Raising UnicodeText

inductive HttpMethod where
  | get | post | put
  deriving DecidableEq, Repr

inductive Body where
  | empty
  | json (payload : Json)
  | form (fields : List (Text × Json))
  | content (bytes : Bytes)

structure Request where
  method : HttpMethod
  url : Text
  headers : List (Text × Text) := []
  body : Body := .empty

structure Response where
  status : ℕ
  json : Option Json

inductive ChannelError where
  /-- `httpx.HTTPError` and what is derived from it. -/
  | httpError (msg : Text)
  | valueError
  | overflowError
  | decimalSignal (signal : Signal)
  | unicodeEncodeError
  /-- What else the HTTP library may raise. -/
  | other (msg : Text)

/-- What the requests up to and including the last one lead to, and which status codes
    `raise_for_status` raises for. -/
structure Network where
  answer : List Request → Except ChannelError Response
  statusError : ℕ → Option Text

abbrev Calling := Raising ChannelError (List Request)

section Sending
variable (net : Network)

def send (r : Request) : Calling Response := do
  modify (· ++ [r])
  attempt id (net.answer (← get))

def raiseForStatus (response : Response) : Calling Unit :=
  match net.statusError response.status with
  | none => return
  | some msg => throw (.httpError msg)

def responseJson (response : Response) : Calling Json :=
  match response.json with
  | some j => return j
  | none => throw .valueError

def slash : CodePoint := ofChar '/'

/-- What the base class knows of a client. -/
structure BaseChannelClient where
  name : Text
  baseUrl : Text
  authHeaders : List (Text × Text)

/-- The base URL and the path with one slash between them. -/
def joinPath (baseUrl path : Text) : Text :=
  baseUrl.rdropWhile (· = slash) ++ slash :: path.dropWhile (· = slash)

/-- `_get_json` -/
def getJson (c : BaseChannelClient) (path : Text) : Calling Json := do
  let r ← send net { method := .get, url := joinPath c.baseUrl path, headers := c.authHeaders }
  raiseForStatus net r
  responseJson r

/-- `_post_json` -/
def postJson (c : BaseChannelClient) (path : Text) (json : Json) : Calling Json := do
  let r ← send net { method := .post, url := joinPath c.baseUrl path, headers := c.authHeaders,
                     body := .json json }
  raiseForStatus net r
  responseJson r

def bearer (token : Text) : List (Text × Text) := [(text "Authorization", text "Bearer " ++ token)]

structure ChannelStatus where
  name : Text
  ok : Bool
  latencyMs : ℤ
  detail : Text := []

/-- A ping, and what its failure makes of the channel; only an error of HTTP counts as one. -/
def healthOf (c : BaseChannelClient) (ping : Calling Unit) (latencyMs : ℤ) :
    Calling ChannelStatus :=
  tryCatch (do
      ping
      return ⟨c.name, true, latencyMs, []⟩)
    fun
      | .httpError msg => return ⟨c.name, false, latencyMs, msg⟩
      | e => throw e

def pathHealth (c : BaseChannelClient) (path : Text) (latencyMs : ℤ) : Calling ChannelStatus :=
  healthOf c (do let _ ← getJson net c path) latencyMs

end Sending

/-- The integer next to a decimal on the side of zero. -/
def truncated (x : FiniteDecimal) : ℤ :=
  let n : ℕ := if 0 ≤ x.exp then x.coeff * 10 ^ x.exp.toNat else x.coeff / 10 ^ (-x.exp).toNat
  if x.neg then -n else n

/-- `int(amount_usd * 100)` -/
def amountCents (amountUsd : Decimal) : Except ChannelError ℤ :=
  match amountUsd.mul defaultContext (.ofNat 100) with
  | .error signal => .error (.decimalSignal signal)
  | .ok (.finite x) => .ok (truncated x)
  | .ok (.infinity _) => .error .overflowError
  | .ok (.nan ..) => .error .valueError

end Channels
