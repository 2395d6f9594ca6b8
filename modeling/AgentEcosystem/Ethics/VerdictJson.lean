import AgentEcosystem.Ethics.EthicsService
import AgentEcosystem.Json.JsonLimits
import AgentEcosystem.Semantics.Raising

/-!
What the service makes of the auditor's answer. A verdict is an object with a
decision and a rationale; an answer that is no object at all is not looked at
before its keys are asked for.
-/
namespace EthicsService
open AgentSchemas JsonText Raising UnicodeText

/-- The exceptions that are a `ValueError`, as the class hierarchy has them. -/
def ReviewError.isValueError : ReviewError → Bool
  | .unicodeDecodeError | .notJson | .integerTooLong | .unexpectedKeys _ | .invalidDecision _
  | .validationError _ => true
  | _ => false

def PreciseKeys (members : List (Text × Json)) : Prop :=
  ∀ key, key ∈ members.map Prod.fst ↔ key ∈ verdictKeys

def LegalVerdict (raw : Text) : Prop :=
  ∃ members decision, Document raw (.obj members) ∧ PreciseKeys members ∧
    member members "decision" = some (.str (text (Decision.value decision)))

/-- A legal answer is returned with a rationale of full length, and any other raises a
    `ValueError`. -/
structure ParsedCleanly (I : Interpreter) (raw : Text) : Prop where
  returns : (∃ verdict, parseVerdictJson I raw = .ok verdict) ↔ LegalVerdict raw
  rationale : ∀ decision rationale, parseVerdictJson I raw = .ok (decision, rationale) →
    rationaleMinLength ≤ rationale.length
  raises : ∀ e, parseVerdictJson I raw = .error e → e.isValueError = true

def isContainer : Json → Bool
  | .arr _ | .obj _ => true
  | _ => false

/-- What is read is an object, of whose decision a set can be asked; the limits of the
    reader stop it at no legal verdict, and not for the nesting. -/
structure Readable (I : Interpreter) (raw : Text) : Prop where
  shallow : loads I.jsonDepth raw ≠ .error .recursion
  digits : loads I.jsonDepth raw = .error .digits → ¬ LegalVerdict raw
  object : ∀ j, loads I.jsonDepth raw = .ok j → ∃ members, j = .obj members ∧
    (PreciseKeys members → ∀ decision, member members "decision" = some decision →
      isContainer decision = false)

theorem member_isSome_iff {members : List (Text × Json)} {key : String} :
    (∃ j, member members key = some j) ↔ text key ∈ members.map Prod.fst := by
  rw [← Option.isSome_iff_exists, member, Option.isSome_map, List.find?_isSome, List.mem_map]
  constructor
  · rintro ⟨m, mem, same⟩
    exact ⟨m, mem, beq_iff_eq.mp same⟩
  · rintro ⟨m, mem, same⟩
    exact ⟨m, mem, beq_iff_eq.mpr same⟩

theorem preciseKeys_iff {members : List (Text × Json)} : PreciseKeys members ↔
    (∃ decision, member members "decision" = some decision) ∧
    (∃ rationale, member members "rationale" = some rationale) ∧
    (members.all fun m => m.1 ∈ verdictKeys) = true := by
  rw [member_isSome_iff, member_isSome_iff, List.all_eq_true]
  constructor
  · intro precise
    refine ⟨(precise _).mpr List.mem_cons_self,
      (precise _).mpr (List.mem_cons_of_mem _ List.mem_cons_self), ?_⟩
    intro m mem
    exact decide_eq_true ((precise m.1).mp (List.mem_map_of_mem mem))
  · rintro ⟨decision, rationale, known⟩ key
    constructor
    · intro mem
      obtain ⟨m, inside, rfl⟩ := List.mem_map.mp mem
      exact of_decide_eq_true (known m inside)
    · intro mem
      simp only [verdictKeys, List.mem_cons, List.not_mem_nil, or_false] at mem
      rcases mem with rfl | rfl
      · exact decision
      · exact rationale

theorem length_padded (rationale : Text) : rationaleMinLength ≤ (padded rationale).length := by
  rw [padded, List.length_append, List.length_replicate]
  omega

theorem decisions_complete (d : Decision) : d ∈ decisions := by
  cases d <;> simp [decisions]

theorem readDecision_ok_iff {j : Json} : (∃ d, readDecision j = .ok d) ↔
    ∃ d : Decision, j = .str (text d.value) := by
  constructor
  · rintro ⟨d, read⟩
    cases j with
    | str s =>
      simp only [readDecision] at read
      rcases found : decisions.find? fun d => text d.value == s with _ | d'
      · rw [found] at read
        cases read
      · have same := List.find?_some (p := fun d : Decision => text d.value == s) found
        exact ⟨d', congrArg Json.str (beq_iff_eq.mp same).symm⟩
    | _ => cases read
  · rintro ⟨d, rfl⟩
    rcases found : decisions.find? fun d' => text d'.value == text d.value with _ | d'
    · have none := List.find?_eq_none.mp found d (decisions_complete d)
      simp at none
    · exact ⟨d', by simp only [readDecision, found]⟩

theorem readDecision_error {j : Json} {e : ReviewError} (raised : readDecision j = .error e) :
    e.isValueError = true ↔ isContainer j = false := by
  cases j with
  | str s =>
    simp only [readDecision] at raised
    split at raised
    · cases raised
    · cases raised
      exact ⟨fun _ => rfl, fun _ => rfl⟩
  | arr elements =>
    cases raised
    exact ⟨nofun, nofun⟩
  | obj members =>
    cases raised
    exact ⟨nofun, nofun⟩
  | _ =>
    cases raised
    exact ⟨fun _ => rfl, fun _ => rfl⟩

section Answer
variable {I : Interpreter} {raw : Text} {members : List (Text × Json)}

theorem parse_precise (read : loads I.jsonDepth raw = .ok (.obj members))
    {decision rationale : Json}
    (first : member members "decision" = some decision)
    (second : member members "rationale" = some rationale) (precise : PreciseKeys members) :
    parseVerdictJson I raw = (readDecision decision).map (·, padded (I.str rationale)) := by
  have known := (preciseKeys_iff.mp precise).2.2
  simp only [parseVerdictJson, read, first, second, known, if_true]
  rfl

theorem parse_other_keys (read : loads I.jsonDepth raw = .ok (.obj members))
    (other : ¬ PreciseKeys members) :
    parseVerdictJson I raw = .error (.unexpectedKeys (members.map Prod.fst)) := by
  simp only [parseVerdictJson, read]
  split
  · next decision rationale first second =>
    rw [if_neg]
    intro known
    exact other (preciseKeys_iff.mpr ⟨⟨decision, first⟩, ⟨rationale, second⟩, known⟩)
  · rfl

/- The answer is read in one way only. -/
theorem legalVerdict_iff {j : Json} (read : loads I.jsonDepth raw = .ok j) : LegalVerdict raw ↔
    ∃ members decision, j = .obj members ∧ PreciseKeys members ∧
      member members "decision" = some (.str (text (Decision.value decision))) := by
  constructor
  · rintro ⟨members, decision, document, precise, legal⟩
    exact ⟨members, decision, document_unique (document_of_loads read) document, precise, legal⟩
  · rintro ⟨members, decision, rfl, precise, legal⟩
    exact ⟨members, decision, document_of_loads read, precise, legal⟩

theorem not_legal_of_decode (malformed : loads I.jsonDepth raw = .error .decode) :
    ¬ LegalVerdict raw := by
  rintro ⟨members, _, document, _⟩
  exact no_document malformed _ document

/-- Where an exception is raised, all turns on its class and on whether a legal verdict
    was refused. -/
theorem parsedCleanly_of_error {e : ReviewError} (raised : parseVerdictJson I raw = .error e) :
    ParsedCleanly I raw ↔ e.isValueError = true ∧ ¬ LegalVerdict raw := by
  constructor
  · intro clean
    refine ⟨clean.raises e raised, ?_⟩
    intro legal
    obtain ⟨verdict, returned⟩ := clean.returns.mpr legal
    rw [raised] at returned
    cases returned
  · rintro ⟨isValue, illegal⟩
    refine ⟨?_, ?_, ?_⟩
    · rw [raised]
      exact ⟨nofun, fun legal => absurd legal illegal⟩
    · intro decision rationale returned
      rw [raised] at returned
      cases returned
    · intro e' raised'
      rw [raised] at raised'
      cases raised'
      exact isValue

theorem parsedCleanly_precise (read : loads I.jsonDepth raw = .ok (.obj members))
    (precise : PreciseKeys members) {decision : Json}
    (first : member members "decision" = some decision) :
    ParsedCleanly I raw ↔ isContainer decision = false := by
  obtain ⟨rationale, second⟩ := (preciseKeys_iff.mp precise).2.1
  have parsed := parse_precise read first second precise
  have legal : LegalVerdict raw ↔ ∃ d, readDecision decision = .ok d := by
    rw [legalVerdict_iff read, readDecision_ok_iff]
    constructor
    · rintro ⟨members', d, same, _, found⟩
      cases same
      rw [first] at found
      exact ⟨d, Option.some.inj found⟩
    · rintro ⟨d, rfl⟩
      exact ⟨members, d, rfl, precise, first⟩
  rcases judged : readDecision decision with e | d
  · have raised : parseVerdictJson I raw = .error e := by
      rw [parsed, judged]
      rfl
    rw [parsedCleanly_of_error raised, readDecision_error judged, legal, judged]
    constructor
    · intro clean
      exact clean.1
    · intro flat
      exact ⟨flat, nofun⟩
  · have returned : parseVerdictJson I raw = .ok (d, padded (I.str rationale)) := by
      rw [parsed, judged]
      rfl
    have flat : isContainer decision = false := by
      obtain ⟨d', rfl⟩ := readDecision_ok_iff.mp ⟨d, judged⟩
      rfl
    refine ⟨fun _ => flat, fun _ => ⟨?_, ?_, ?_⟩⟩
    · exact ⟨fun _ => legal.mpr ⟨d, judged⟩, fun _ => ⟨_, returned⟩⟩
    · intro decision' rationale' same
      rw [returned] at same
      cases same
      exact length_padded _
    · intro e raised
      rw [returned] at raised
      cases raised

theorem parsedCleanly_other_keys (read : loads I.jsonDepth raw = .ok (.obj members))
    (other : ¬ PreciseKeys members) : ParsedCleanly I raw := by
  apply (parsedCleanly_of_error (parse_other_keys read other)).mpr
  refine ⟨rfl, ?_⟩
  rw [legalVerdict_iff read]
  rintro ⟨members', _, same, precise, _⟩
  cases same
  exact other precise

theorem not_parsedCleanly_of_other {j : Json} (read : loads I.jsonDepth raw = .ok j)
    (other : ∀ members, j ≠ .obj members) : ¬ ParsedCleanly I raw := by
  have raised : parseVerdictJson I raw = .error .attributeError := by
    cases j with
    | obj members => exact absurd rfl (other members)
    | _ => simp only [parseVerdictJson, read]
  rw [parsedCleanly_of_error raised]
  rintro ⟨isValue, _⟩
  cases isValue

/- What is not read is refused with a `ValueError`, if it is not for the nesting. -/
theorem parsedCleanly_unread {e : JsonError} (read : loads I.jsonDepth raw = .error e) :
    ParsedCleanly I raw ↔ e ≠ .recursion ∧ (e = .digits → ¬ LegalVerdict raw) := by
  cases e with
  | decode =>
    have raised : parseVerdictJson I raw = .error .notJson := by
      simp only [parseVerdictJson, read]
    rw [parsedCleanly_of_error raised]
    exact ⟨fun _ => ⟨nofun, nofun⟩, fun _ => ⟨rfl, not_legal_of_decode read⟩⟩
  | recursion =>
    have raised : parseVerdictJson I raw = .error .recursionError := by
      simp only [parseVerdictJson, read]
    rw [parsedCleanly_of_error raised]
    exact ⟨fun h => absurd h.1 Bool.false_ne_true, fun h => absurd rfl h.1⟩
  | digits =>
    have raised : parseVerdictJson I raw = .error .integerTooLong := by
      simp only [parseVerdictJson, read]
    rw [parsedCleanly_of_error raised]
    exact ⟨fun h => ⟨nofun, fun _ => h.2⟩, fun h => ⟨rfl, h.2 rfl⟩⟩

theorem readable_unread {e : JsonError} (read : loads I.jsonDepth raw = .error e) :
    Readable I raw ↔ e ≠ .recursion ∧ (e = .digits → ¬ LegalVerdict raw) := by
  constructor
  · intro h
    constructor
    · rintro rfl
      exact h.shallow read
    · rintro rfl
      exact h.digits read
  · rintro ⟨shallow, digits⟩
    refine ⟨?_, ?_, ?_⟩
    · rw [read]
      intro same
      exact shallow (Except.error.inj same)
    · rw [read]
      intro same
      exact digits (Except.error.inj same)
    · intro j same
      rw [read] at same
      cases same

theorem readable_read {j : Json} (read : loads I.jsonDepth raw = .ok j) :
    Readable I raw ↔ ∃ members, j = .obj members ∧ (PreciseKeys members →
      ∀ decision, member members "decision" = some decision → isContainer decision = false) := by
  constructor
  · intro h
    exact h.object j read
  · intro object
    refine ⟨?_, ?_, ?_⟩
    · rw [read]
      exact nofun
    · rw [read]
      exact nofun
    · intro j' same
      rw [read] at same
      cases same
      exact object

/-- The auditor's answer is either returned as the verdict it is or refused with a
    `ValueError` exactly if it is malformed, or an object, unless its decision is an array
    or an object, and is within the limits of the reader. -/
theorem parsedCleanly_iff (I : Interpreter) (raw : Text) :
    ParsedCleanly I raw ↔ Readable I raw := by
  rcases read : loads I.jsonDepth raw with e | j
  · rw [parsedCleanly_unread read, readable_unread read]
  · rw [readable_read read]
    constructor
    · intro clean
      by_cases isObject : ∃ members, j = .obj members
      · obtain ⟨members, rfl⟩ := isObject
        exact ⟨members, rfl, fun precise _ first =>
          (parsedCleanly_precise read precise first).mp clean⟩
      · exact absurd clean (not_parsedCleanly_of_other read (not_exists.mp isObject))
    · rintro ⟨members, rfl, flat⟩
      by_cases precise : PreciseKeys members
      · obtain ⟨decision, first⟩ := (preciseKeys_iff.mp precise).1
        exact (parsedCleanly_precise read precise first).mpr (flat precise decision first)
      · exact parsedCleanly_other_keys read precise

end Answer

def firstPrompt : Bytes := [0x76, 0x31, 0x0A]

def secondPrompt : Bytes := [0x76, 0x32, 0x0A]

def promptDigest (bytes : Bytes) : String :=
  if bytes = firstPrompt then "2d27fbdf4e8ca207afbfa388ca9172fbcc6c70e534af2476b3b704f87debadcf"
  else if bytes = secondPrompt then
    "81db67b6a5702b9b68f0016f061c409bf3fb16d062fc854d1b424bb4e9c28c56"
  else "0000000000000000000000000000000000000000000000000000000000000000"

def runnableInterpreter : Interpreter where
  sha256 :=
    { hexdigest := promptDigest
      hex := by
        intro bytes
        apply hex_of_all
        unfold promptDigest
        split
        · decide +kernel
        · split
          · decide +kernel
          · exact zeros_hex }
  jsonDepth := 990
  str
    | .str s => s
    | _ => text "None"
  str_str _ := rfl

/-- What was raised is no `ValueError`. -/
def escapes {α : Type} : Except ReviewError α → Bool
  | .error e => !e.isValueError
  | .ok _ => false

theorem not_parsedCleanly {I : Interpreter} {raw : Text}
    (other : escapes (parseVerdictJson I raw) = true) : ¬ ParsedCleanly I raw := by
  intro clean
  rcases parsed : parseVerdictJson I raw with e | verdict
  · rw [parsed, escapes, clean.raises e parsed] at other
    cases other
  · rw [parsed] at other
    cases other

/-- An empty array has no keys, and a decision that is an array is in no set: neither
    answer is refused with a `ValueError`. -/
theorem unreadable_answers_escape :
    ¬ ParsedCleanly runnableInterpreter (text "[]") ∧
    ¬ ParsedCleanly runnableInterpreter (text "\x7b\"decision\":[],\"rationale\":\"\"\x7d") :=
  ⟨not_parsedCleanly (by decide +kernel), not_parsedCleanly (by decide +kernel)⟩

end EthicsService
