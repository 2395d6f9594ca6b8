import AgentEcosystem.Decimal.ContextArithmetic
import AgentEcosystem.Json.JsonText
import AgentEcosystem.Schemas
import AgentEcosystem.Text.Tokens

/-!
The operator's messages: a verb and its arguments in the subject of a mail.
Anything that is not one of the commands is answered with a form letter.
-/
namespace OperatorParser
open AgentSchemas DecimalArithmetic JsonText UnicodeText

inductive Action where
  | approve | reject | «continue» | pause | killChild | killAll | resume | emergencyTransfer
  deriving DecidableEq, Repr

structure OperatorMessage where
  action : Action
  subjectId : Option Uuid := none
  amountUsd : Option Decimal := none
  bodyExcerpt : Text := []
  rawSha256 : String := ""
  deriving DecidableEq, Repr

def allowedVerbs : List String :=
  ["APPROVE <proposal_id>", "REJECT <proposal_id>", "CONTINUE", "PAUSE", "KILL <child_id>",
    "KILL ALL", "RESUME <event_id>", "EMERGENCY_TRANSFER <amount_usd> reserve->operating"]

structure FormLetter where
  reason : Text
  allowedVerbs : List String := OperatorParser.allowedVerbs
  rawSha256 : String := ""
  deriving DecidableEq, Repr

inductive ParseResult where
  | operatorMessage (m : OperatorMessage)
  | formLetter (f : FormLetter)
  deriving DecidableEq, Repr

inductive ParseError where
  | unicodeEncodeError
  | indexError
  deriving DecidableEq, Repr

def isHex (c : CodePoint) : Bool := (hexValue c).isSome

/-- `UUID_RE`: hexadecimal digits in groups of these lengths, with dashes between. -/
def isUuid (t : Text) : Bool :=
  let groups := t.splitOn (ofChar '-')
  groups.map List.length == [8, 4, 4, 4, 12] && groups.all fun g => g.all isHex

/-- `int(t, 16)` -/
def ofHex (t : Text) : ℕ := t.foldl (fun n c => 16 * n + (hexValue c).getD 0) 0

/-- `UUID(t)`, for a text that `UUID_RE` matches. -/
def uuidOf (t : Text) : Uuid := ⟨Fin.ofNat (2 ^ 128) (ofHex (t.filter (· ≠ ofChar '-')))⟩

section Amounts
variable (data : StrData)

def isDigit (c : CodePoint) : Bool := (data.digit c).isSome

/-- The digits before the point and behind it, if `AMOUNT_RE` matches. -/
def amountDigits (t : Text) : Option (List (Fin 10) × List (Fin 10)) :=
  let (whole, rest) := t.span (isDigit data)
  if whole = [] then none
  else
    match rest with
    | [] => some (whole.filterMap data.digit, [])
    | point :: cents =>
      if point = ofChar '.' ∧ (cents.length = 1 ∨ cents.length = 2) ∧ cents.all (isDigit data) then
        some (whole.filterMap data.digit, cents.filterMap data.digit)
      else none

end Amounts

/-- `Decimal(t)` of a text with these digits, which is exact. -/
def decimalOf (whole cents : List (Fin 10)) : Decimal :=
  .finite ⟨false, ofDigits (whole ++ cents), -(cents.length : ℤ)⟩

def sha (sha256 : Sha256) (raw : Text) : Except ParseError String :=
  match encode raw with
  | some bytes => .ok (sha256.hexdigest bytes)
  | none => .error .unicodeEncodeError

def maxExcerpt : ℕ := 500

section Commands
variable (rawSha : String)

def rejectWith (reason : Text) : ParseResult := .formLetter { reason, rawSha256 := rawSha }

def withUuid (requirement : String) (message : Uuid → OperatorMessage) : List Text → ParseResult
  | [arg] =>
    if isUuid arg then .operatorMessage (message (uuidOf arg))
    else rejectWith rawSha (text requirement)
  | _ => rejectWith rawSha (text requirement)

def alone (requirement : String) (message : OperatorMessage) : List Text → ParseResult
  | [] => .operatorMessage message
  | _ => rejectWith rawSha (text requirement)

def killRequirement : String := "KILL must be 'KILL ALL' or 'KILL <child_uuid>'"

def kill (data : StrData) : List Text → ParseResult
  | [arg] =>
    if data.upper arg = text "ALL" then
      .operatorMessage { action := .killAll, rawSha256 := rawSha }
    else if isUuid arg then
      .operatorMessage { action := .killChild, subjectId := some (uuidOf arg), rawSha256 := rawSha }
    else rejectWith rawSha (text killRequirement)
  | _ => rejectWith rawSha (text killRequirement)

def emergencyTransfer (data : StrData) (body : Text) : List Text → ParseResult
  | [amount, direction] =>
    if data.lower direction ≠ text "reserve->operating" then
      rejectWith rawSha (text "EMERGENCY_TRANSFER direction must be reserve->operating")
    else
      match amountDigits data amount with
      | none => rejectWith rawSha (text "EMERGENCY_TRANSFER amount must be USD decimal")
      | some (whole, cents) =>
        .operatorMessage
          { action := .emergencyTransfer, amountUsd := some (decimalOf whole cents),
            bodyExcerpt := body.take maxExcerpt, rawSha256 := rawSha }
  | _ => rejectWith rawSha (text "EMERGENCY_TRANSFER <amount> reserve->operating")

def command (data : StrData) (body verb : Text) (args : List Text) : ParseResult :=
  if verb = text "APPROVE" then
    withUuid rawSha "APPROVE requires exactly one proposal UUID"
      (fun u => { action := .approve, subjectId := some u, rawSha256 := rawSha }) args
  else if verb = text "REJECT" then
    -- the body is logged but not parsed
    withUuid rawSha "REJECT requires exactly one proposal UUID"
      (fun u =>
        { action := .reject, subjectId := some u, bodyExcerpt := body.take maxExcerpt,
          rawSha256 := rawSha }) args
  else if verb = text "CONTINUE" then
    alone rawSha "CONTINUE takes no arguments" { action := .«continue», rawSha256 := rawSha } args
  else if verb = text "PAUSE" then
    alone rawSha "PAUSE takes no arguments" { action := .pause, rawSha256 := rawSha } args
  else if verb = text "KILL" then kill rawSha data args
  else if verb = text "RESUME" then
    withUuid rawSha "RESUME requires exactly one event UUID"
      (fun u => { action := .resume, subjectId := some u, rawSha256 := rawSha }) args
  else if verb = text "EMERGENCY_TRANSFER" then emergencyTransfer rawSha data body args
  else rejectWith rawSha (text "unknown_verb:" ++ verb)

end Commands

def parse (sha256 : Sha256) (data : StrData) (subject body : Text) :
    Except ParseError ParseResult := do
  let rawSha ← sha sha256 (strip (subject ++ text "\n" ++ body))
  let s := strip subject
  if s = [] then return rejectWith rawSha (text "empty_subject")
  match split s with
  | [] => throw .indexError
  | verb :: args => return command rawSha data body (data.upper verb) args

end OperatorParser
