import AgentEcosystem.Json.JsonText
import AgentEcosystem.Schemas
import AgentEcosystem.Semantics.GuardedSection
import Mathlib.Logic.Function.Basic

/-!
The ethics review. A review looks into the cache before and behind the lock,
reads the prompt, awaits the provider and caches the verdict it validates; all
that goes wrong on the way raises and leaves the cache alone.
-/
namespace EthicsService
open AgentSchemas GuardedSection JsonText UnicodeText

inductive SubjectType where
  | verticalProposal | toolArtifact
  deriving DecidableEq, Repr

structure EthicsReviewRequest where
  id : Uuid
  subjectType : SubjectType
  subjectId : Uuid
  payloadJson : String
  createdAt : Timestamp
  deriving DecidableEq

inductive Decision where
  | approve | reject | escalate
  deriving DecidableEq, Repr

def Decision.value : Decision → String
  | .approve => "approve"
  | .reject => "reject"
  | .escalate => "escalate"

def rationaleMinLength : ℕ := 50
def rationaleMaxLength : ℕ := 4000

structure EthicsVerdict where
  id : Uuid
  requestId : Uuid
  decision : Decision
  rationale : Text
  rulesetHash : String
  modelUsed : ModelID
  decidedAt : Timestamp
  rationale_fits : rationaleMinLength ≤ rationale.length ∧ rationale.length ≤ rationaleMaxLength
  rationale_valid : (encode rationale).isSome = true
  rulesetHash_fits : isHexDigest rulesetHash = true
  modelUsed_opus : modelUsed = .opus47

/-- What a review raises. Where the exception is a `ValueError`, its text names
    the data the constructor carries. -/
inductive ReviewError where
  | osError
  | unicodeDecodeError
  /-- `ValueError`: the answer is no JSON document. -/
  | notJson
  /-- `ValueError`: an integer in the answer is too long to convert. -/
  | integerTooLong
  | recursionError
  /-- The answer is no object and has no keys. -/
  | attributeError
  /-- `ValueError` -/
  | unexpectedKeys (keys : List Text)
  /-- The decision is an array or an object, which no set can hold. -/
  | typeError
  /-- `ValueError` -/
  | invalidDecision (decision : Json)
  | validationError (fields : List String)
  | providerError (msg : String)
  | cancelledError
  deriving Repr

def EthicsVerdict.validate (id requestId : Uuid) (decision : Decision) (rationale : Text)
    (rulesetHash : String) (modelUsed : ModelID) (decidedAt : Timestamp) :
    Except ReviewError EthicsVerdict :=
  let rationaleFits := rationaleMinLength ≤ rationale.length ∧ rationale.length ≤ rationaleMaxLength
  if h : ((encode rationale).isSome = true ∧ rationaleFits) ∧ isHexDigest rulesetHash = true ∧
      modelUsed = .opus47 then
    .ok ⟨id, requestId, decision, rationale, rulesetHash, modelUsed, decidedAt, h.1.2, h.1.1,
      h.2.1, h.2.2⟩
  else
    let rationaleErrors :=
      if (encode rationale).isSome = true ∧ rationaleFits then [] else ["rationale"]
    let hashErrors := if isHexDigest rulesetHash = true then [] else ["ruleset_hash"]
    let modelErrors := if modelUsed = .opus47 then [] else ["model_used"]
    .error (.validationError (rationaleErrors ++ hashErrors ++ modelErrors))

/-- What the service uses from the interpreter it runs in: the hash, the depth
    to which JSON is read, and `str` of a value that was read. -/
structure Interpreter where
  sha256 : Sha256
  jsonDepth : ℕ
  str : Json → Text
  str_str : ∀ s, str (.str s) = s

def member (members : List (Text × Json)) (key : String) : Option Json :=
  (members.find? fun m => m.1 == text key).map Prod.snd

def verdictKeys : List Text := [text "decision", text "rationale"]

def decisions : List Decision := [.approve, .reject, .escalate]

/-- `data["decision"]` if it is one of the three words. -/
def readDecision : Json → Except ReviewError Decision
  | .str s =>
    match decisions.find? fun d => text d.value == s with
    | some d => .ok d
    | none => .error (.invalidDecision (.str s))
  | .arr _ => .error .typeError
  | .obj _ => .error .typeError
  | other => .error (.invalidDecision other)

/-- A short rationale is filled up with blanks. -/
def padded (rationale : Text) : Text :=
  rationale ++ List.replicate (rationaleMinLength - rationale.length) (ofChar ' ')

section Review
variable (I : Interpreter)

def parseVerdictJson (raw : Text) : Except ReviewError (Decision × Text) :=
  match loads I.jsonDepth raw with
  | .error .decode => .error .notJson
  | .error .digits => .error .integerTooLong
  | .error .recursion => .error .recursionError
  | .ok (.obj members) =>
    match member members "decision", member members "rationale" with
    | some decision, some rationale =>
      if members.all fun m => m.1 ∈ verdictKeys then do
        return (← readDecision decision, padded (I.str rationale))
      else .error (.unexpectedKeys (members.map Prod.fst))
    | _, _ => .error (.unexpectedKeys (members.map Prod.fst))
  | .ok _ => .error .attributeError

/-- The bytes of the prompt file at its two reads, none where reading fails. -/
structure PromptReads where
  text : Option Bytes
  bytes : Option Bytes

def readFrozenPrompt (reads : PromptReads) : Except ReviewError Text :=
  match reads.text with
  | none => .error .osError
  | some bytes =>
    match decodeStrict bytes with
    | some prompt => .ok (universalNewlines prompt)
    | none => .error .unicodeDecodeError

def frozenPromptHash (reads : PromptReads) : Except ReviewError String :=
  match reads.bytes with
  | none => .error .osError
  | some bytes => .ok (I.sha256.hexdigest bytes)

abbrev Key := SubjectType × String

def cacheKey (req : EthicsReviewRequest) : Key := (req.subjectType, req.subjectId.str)

abbrev Cache := Key → Option EthicsVerdict

def cachedReject (cache : Cache) (key : Key) : Option EthicsVerdict :=
  (cache key).filter fun v => v.decision = .reject

/-- What a review holds while it awaits `complete` with this prompt. -/
structure ProviderCall where
  prompt : Text
  rulesetHash : String

/-- What a review learns from its await on: the answer, the new verdict's id and
    the time. -/
structure Reply where
  response : Except String Text
  verdictId : Uuid
  now : Timestamp

abbrev ReviewResult := Except ReviewError EthicsVerdict

/-- Behind the lock, up to the provider call. -/
def beginReview (cache : Cache) (req : EthicsReviewRequest) (reads : PromptReads) :
    ProviderCall ⊕ ReviewResult :=
  match cachedReject cache (cacheKey req) with
  | some v => .inr (.ok v)
  | none =>
    match readFrozenPrompt reads, frozenPromptHash I reads with
    | .ok prompt, .ok rulesetHash => .inl ⟨prompt, rulesetHash⟩
    | .error e, _ => .inr (.error e)
    | .ok _, .error e => .inr (.error e)

def conclude (req : EthicsReviewRequest) (call : ProviderCall) (reply : Reply) : ReviewResult := do
  let response ← reply.response.mapError .providerError
  let (decision, rationale) ← parseVerdictJson I response
  EthicsVerdict.validate reply.verdictId req.id decision rationale call.rulesetHash .opus47
    reply.now

/-- From the provider's answer to the end. -/
def endReview (cache : Cache) (req : EthicsReviewRequest) (call : ProviderCall) (reply : Reply) :
    Cache × ReviewResult :=
  match conclude I req call reply with
  | .ok v => (Function.update cache (cacheKey req) (some v), .ok v)
  | .error e => (cache, .error e)

def review : Section Cache EthicsReviewRequest ProviderCall ReviewResult PromptReads Reply where
  early cache req := (cachedReject cache (cacheKey req)).map .ok
  enter := beginReview I
  leave := endReview I
  cancelled := .error .cancelledError

end Review

abbrev Reviews := State Cache EthicsReviewRequest ProviderCall ReviewResult
abbrev ReviewAction := Action EthicsReviewRequest PromptReads Reply

def newService : Reviews := start fun _ => none

end EthicsService
