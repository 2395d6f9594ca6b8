import AgentEcosystem.CodeBuilder.Builder
import AgentEcosystem.Json.JsonLimits
import AgentEcosystem.Python.ImportStatements
import AgentEcosystem.Text.Urls
import AgentEcosystem.Text.Utf8RoundTrip

/-!
The red flags a request is to be escalated for, and what the escalation looks at: two
spellings of an import, the outermost properties and an empty list of domains. A flag is
missed where it is written in another way.
-/
namespace CodeBuilder
open JsonText PythonSource UnicodeText

/-- The `base_url` of each client in `channels`. -/
def channelUrls : List String :=
  ["https://api.cloudflare.com/client/v4", "https://api.lemonsqueezy.com/v1",
    "https://api.netlify.com/api/v1", "https://api.polar.sh/v1",
    "https://api.porkbun.com/api/json/v3", "https://api.stripe.com/v1", "https://api.vercel.com"]

def apiHosts : List Text :=
  channelUrls.filterMap fun url => hostname asciiStrData (netlocOf (text url))

example : apiHosts = ["api.cloudflare.com", "api.lemonsqueezy.com", "api.netlify.com",
    "api.polar.sh", "api.porkbun.com", "api.stripe.com", "api.vercel.com"].map text := by decide

def foreignHost (req : BuildRequest) : Bool :=
  req.networkRequired && req.allowedDomains.any fun d => decide (text d ∉ apiHosts)

def hasKey (p : Text) : Json → Bool
  | .obj members => members.any fun m => m.1 == p
  | _ => false

mutual
def namesField (p : Text) : Json → Bool
  | .obj members => membersName p members
  | .arr elements => elementsName p elements
  | _ => false

def membersName (p : Text) : List (Text × Json) → Bool
  | [] => false
  | m :: members =>
    (m.1 == text "properties" && hasKey p m.2) || memberName p m || membersName p members

def memberName (p : Text) : Text × Json → Bool
  | (_, v) => namesField p v

def elementsName (p : Text) : List Json → Bool
  | [] => false
  | v :: elements => namesField p v || elementsName p elements
end

def asksForPii (schemaJson : String) : Bool :=
  match parse (text schemaJson) with
  | .ok v => piiFields.any fun p => namesField (text p) v
  | .error _ => false

/-- The encodings a source may declare, and the normal form of its names. -/
structure Interpreter where
  sourceText : Bytes → Option Text
  normalized : Text → Text

def forbiddenModules : List String := ["subprocess", "socket", "ctypes", "pickle"]

def sourceStatements (python : Interpreter) (toolSource : Bytes) : List (List Lexeme) :=
  match python.sourceText toolSource with
  | some source => statementsOf (universalNewlines source)
  | none => []

def importsForbidden (python : Interpreter) (toolSource : Bytes) : Bool :=
  forbiddenModules.any fun m =>
    (sourceStatements python toolSource).any (namesModule python.normalized (text m))

def redFlag (python : Interpreter) (req : BuildRequest) (toolSource : Bytes) : Bool :=
  foreignHost req || asksForPii req.inputSchemaJson || importsForbidden python toolSource

/-- What the escalation notices is a module behind its keyword and one blank, a field in the
    outermost properties, or a network without domains. -/
inductive Noticed (depth : ℕ) (req : BuildRequest) (source : Text) : Prop
  | spelled {keyword m : String} : keyword ∈ ["import ", "from "] → m ∈ forbiddenImports →
      text (keyword ++ m) <:+: source → Noticed depth req source
  | property {members fields : List (Text × Json)} {p : String} {v : Json} :
      loads depth (text req.inputSchemaJson) = .ok (.obj members) →
      (text "properties", .obj fields) ∈ members → p ∈ piiFields → (text p, v) ∈ fields →
      Noticed depth req source
  | element {members : List (Text × Json)} {elements : List Json} {p : String} :
      loads depth (text req.inputSchemaJson) = .ok (.obj members) →
      (text "properties", .arr elements) ∈ members → p ∈ piiFields → .str (text p) ∈ elements →
      Noticed depth req source
  | mention {members : List (Text × Json)} {t : Text} {p : String} :
      loads depth (text req.inputSchemaJson) = .ok (.obj members) →
      (text "properties", .str t) ∈ members → p ∈ piiFields → text p <:+: t →
      Noticed depth req source
  | anywhere : req.networkRequired = true → req.allowedDomains = [] → Noticed depth req source

def SpelledOut (statement : List Lexeme) (m : String) : Prop :=
  ∃ first ∈ statement.head?, ∃ keyword ∈ ["import ", "from "],
    text (keyword ++ m) <+: first.onward

def parts : Json → List Json
  | .obj members => members.map Prod.snd
  | .arr elements => elements
  | _ => []

/-- A red flag is out of sight if it is a host, a field below the outermost properties or in a
    schema too large for the interpreter, or an import that is not spelled out or whose source
    is not in UTF-8. -/
inductive Hidden (depth : ℕ) (python : Interpreter) (req : BuildRequest)
    (toolSource : Bytes) : Prop
  | host {d : String} : req.networkRequired = true → d ∈ req.allowedDomains →
      text d ∉ apiHosts → Hidden depth python req toolSource
  | nested {v part : Json} {p : String} : parse (text req.inputSchemaJson) = .ok v →
      part ∈ parts v → p ∈ piiFields → namesField (text p) part = true →
      Hidden depth python req toolSource
  | tooLarge {v : Json} {p : String} : parse (text req.inputSchemaJson) = .ok v →
      p ∈ piiFields → namesField (text p) v = true →
      (∀ w, loads depth (text req.inputSchemaJson) ≠ .ok w) → Hidden depth python req toolSource
  | respelled {statement : List Lexeme} {m : String} :
      statement ∈ sourceStatements python toolSource → m ∈ forbiddenModules →
      namesModule python.normalized (text m) statement = true → ¬ SpelledOut statement m →
      Hidden depth python req toolSource
  | encoded {source : Text} {statement : List Lexeme} {m : String} :
      python.sourceText toolSource = some source → ¬ source <:+: decodeIgnore toolSource →
      statement ∈ sourceStatements python toolSource → m ∈ forbiddenModules →
      namesModule python.normalized (text m) statement = true → Hidden depth python req toolSource

theorem hasForbiddenImport_iff (source : Text) : hasForbiddenImport source = true ↔
    ∃ m ∈ forbiddenImports, ∃ keyword ∈ ["import ", "from "],
      text (keyword ++ m) <:+: source := by
  simp [hasForbiddenImport, contains_iff]

theorem find_member {members : List (Text × Json)} (distinct : (members.map Prod.fst).Nodup)
    {key : Text} {v : Json} :
    (key, v) ∈ members ↔ members.find? (fun m => m.1 == key) = some (key, v) := by
  constructor
  · intro listed
    cases found : members.find? fun m => m.1 == key with
    | none =>
      have other := List.find?_eq_none.mp found (key, v) listed
      simp at other
    | some m =>
      have same : m.1 = key := by simpa using List.find?_some found
      rw [List.inj_on_of_nodup_map distinct (List.mem_of_find?_eq_some found) listed same]
  · exact List.mem_of_find?_eq_some

theorem hasPiiField_iff (depth : ℕ) (schemaJson : String) : hasPiiField depth schemaJson = true ↔
    ∃ members props, loads depth (text schemaJson) = .ok (.obj members) ∧
      (text "properties", props) ∈ members ∧
      ∃ p ∈ piiFields, inContainer (text p) props = some true := by
  have found : ∀ props, (piiFields.any fun p => (inContainer (text p) props).getD false) = true ↔
      ∃ p ∈ piiFields, inContainer (text p) props = some true := by
    intro props
    simp only [List.any_eq_true, Option.getD_eq_iff]
    simp
  unfold hasPiiField
  split
  · rename_i members read
    have distinct := loads_distinct read
    constructor
    · intro named
      split at named
      · rename_i key props first
        obtain rfl : key = text "properties" := by simpa using List.find?_some first
        exact ⟨members, props, read, (find_member distinct).mpr first, (found props).mp named⟩
      · cases named
    · rintro ⟨members', props, read', listed, named⟩
      cases read.symm.trans read'
      rw [(find_member distinct).mp listed]
      exact (found props).mpr named
  · rename_i other
    simp only [Bool.false_eq_true, false_iff]
    rintro ⟨members, _, read, _⟩
    exact other members read

theorem inContainer_iff {p : Text} {props : Json} : inContainer p props = some true ↔
    (∃ fields v, props = .obj fields ∧ (p, v) ∈ fields) ∨
    (∃ elements, props = .arr elements ∧ .str p ∈ elements) ∨
    ∃ t, props = .str t ∧ p <:+: t := by
  cases props with
  | obj fields => simp [inContainer]
  | arr elements =>
    simp only [inContainer, Option.some.injEq, List.any_eq_true, reduceCtorEq, false_and,
      exists_false, false_or, or_false, Json.arr.injEq, exists_eq_left']
    constructor
    · rintro ⟨v, listed, same⟩
      cases v with
      | str s =>
        obtain rfl : s = p := by simpa using same
        exact listed
      | _ => cases same
    · exact fun listed => ⟨_, listed, by simp⟩
  | str t => simp [inContainer, contains_iff]
  | _ => simp [inContainer]

theorem noticed_iff {depth : ℕ} {req : BuildRequest} {toolSource : Bytes} :
    Noticed depth req (decodeIgnore toolSource) ↔ ¬ NoRedFlag depth req toolSource := by
  constructor
  · intro noticed quiet
    have noField : ∀ {members props p}, loads depth (text req.inputSchemaJson) =
        .ok (.obj members) → (text "properties", props) ∈ members → p ∈ piiFields →
        inContainer (text p) props ≠ some true := by
      intro members props p read listed field named
      have flagged := (hasPiiField_iff _ _).mpr ⟨members, props, read, listed, p, field, named⟩
      exact absurd (flagged.symm.trans quiet.noPiiField) (by decide)
    cases noticed with
    | spelled keyword m found =>
      have flagged := (hasForbiddenImport_iff _).mpr ⟨_, m, _, keyword, found⟩
      exact absurd (flagged.symm.trans quiet.noForbiddenImport) (by decide)
    | property read listed field named =>
      exact noField read listed field (inContainer_iff.mpr (.inl ⟨_, _, rfl, named⟩))
    | element read listed field named =>
      exact noField read listed field (inContainer_iff.mpr (.inr (.inl ⟨_, rfl, named⟩)))
    | mention read listed field named =>
      exact noField read listed field (inContainer_iff.mpr (.inr (.inr ⟨_, rfl, named⟩)))
    | anywhere required empty =>
      have closed := quiet.networkClosed
      rw [required, empty] at closed
      cases closed
  · intro flagged
    by_contra unnoticed
    apply flagged
    constructor
    · rw [Bool.eq_false_iff]
      intro found
      obtain ⟨m, member, keyword, word, spelled⟩ := (hasForbiddenImport_iff _).mp found
      exact unnoticed (.spelled word member spelled)
    · rw [Bool.eq_false_iff]
      intro found
      obtain ⟨members, props, read, listed, p, field, named⟩ := (hasPiiField_iff _ _).mp found
      rcases inContainer_iff.mp named with ⟨fields, v, rfl, key⟩ | ⟨elements, rfl, element⟩ |
        ⟨t, rfl, mention⟩
      · exact unnoticed (.property read listed field key)
      · exact unnoticed (.element read listed field element)
      · exact unnoticed (.mention read listed field mention)
    · rw [Bool.eq_false_iff]
      intro opened
      simp only [Bool.and_eq_true, List.isEmpty_iff] at opened
      exact unnoticed (.anywhere opened.1 opened.2)

theorem escalated_iff {depth : ℕ} {req : BuildRequest} {toolSource : Bytes} :
    (policyEscalate depth req toolSource).riskTier = .high ↔
      req.riskTier = .high ∨ Noticed depth req (decodeIgnore toolSource) := by
  rw [policyEscalate_high_iff, noticed_iff]

theorem asksForPii_iff {schemaJson : String} : asksForPii schemaJson = true ↔
    ∃ v, parse (text schemaJson) = .ok v ∧ ∃ p ∈ piiFields, namesField (text p) v = true := by
  unfold asksForPii
  cases parse (text schemaJson) <;> simp

theorem elementsName_iff {p : Text} {elements : List Json} :
    elementsName p elements = true ↔ ∃ v ∈ elements, namesField p v = true := by
  induction elements with
  | nil => simp [elementsName]
  | cons v elements ih => simp [elementsName, ih]

theorem membersName_iff {p : Text} {members : List (Text × Json)} :
    membersName p members = true ↔
      (∃ fields v, (text "properties", .obj fields) ∈ members ∧ (p, v) ∈ fields) ∨
        ∃ m ∈ members, namesField p m.2 = true := by
  have key : ∀ props, hasKey p props = true ↔ ∃ fields v, props = .obj fields ∧ (p, v) ∈ fields := by
    intro props
    cases props <;> simp [hasKey]
  induction members with
  | nil => simp [membersName]
  | cons m members ih =>
    obtain ⟨k, props⟩ := m
    simp only [membersName, memberName, Bool.or_eq_true, Bool.and_eq_true, beq_iff_eq, key, ih]
    constructor
    · rintro ((⟨rfl, fields, v, rfl, named⟩ | inside) | ⟨fields, v, listed, named⟩ |
        ⟨m, listed, inside⟩)
      · exact .inl ⟨fields, v, List.mem_cons_self, named⟩
      · exact .inr ⟨_, List.mem_cons_self, inside⟩
      · exact .inl ⟨fields, v, List.mem_cons_of_mem _ listed, named⟩
      · exact .inr ⟨m, List.mem_cons_of_mem _ listed, inside⟩
    · rintro (⟨fields, v, listed, named⟩ | ⟨m, listed, inside⟩)
      · rcases List.mem_cons.mp listed with same | later
        · cases same
          exact .inl (.inl ⟨rfl, fields, v, rfl, named⟩)
        · exact .inr (.inl ⟨fields, v, later, named⟩)
      · rcases List.mem_cons.mp listed with rfl | later
        · exact .inl (.inr inside)
        · exact .inr (.inr ⟨m, later, inside⟩)

/-- A field is a key of the outermost properties or of properties further in. -/
theorem namesField_iff {p : Text} {v : Json} : namesField p v = true ↔
    (∃ members fields w, v = .obj members ∧ (text "properties", .obj fields) ∈ members ∧
      (p, w) ∈ fields) ∨ ∃ part ∈ parts v, namesField p part = true := by
  cases v with
  | obj members =>
    have inside : (∃ part ∈ parts (.obj members), namesField p part = true) ↔
        ∃ m ∈ members, namesField p m.2 = true := by
      constructor
      · rintro ⟨part, listed, named⟩
        obtain ⟨m, mem, rfl⟩ := List.mem_map.mp listed
        exact ⟨m, mem, named⟩
      · exact fun ⟨m, mem, named⟩ => ⟨m.2, List.mem_map_of_mem mem, named⟩
    rw [namesField, membersName_iff, inside]
    simp
  | arr elements => simp [namesField, elementsName_iff, parts]
  | _ => simp [namesField, parts]

theorem importsForbidden_iff {python : Interpreter} {toolSource : Bytes} :
    importsForbidden python toolSource = true ↔
      ∃ m ∈ forbiddenModules, ∃ statement ∈ sourceStatements python toolSource,
        namesModule python.normalized (text m) statement = true := by
  simp [importsForbidden]

theorem foreignHost_iff {req : BuildRequest} : foreignHost req = true ↔
    req.networkRequired = true ∧ ∃ d ∈ req.allowedDomains, text d ∉ apiHosts := by
  simp [foreignHost]

theorem spelledOut_infix {source : Text} {statement : List Lexeme}
    (listed : statement ∈ statementsOf (universalNewlines source)) {m : String}
    (forbidden : m ∈ forbiddenModules) (spelled : SpelledOut statement m) :
    ∃ keyword ∈ ["import ", "from "], text (keyword ++ m) <:+: source := by
  obtain ⟨first, head, keyword, word, spelled⟩ := spelled
  have oneLine : ∀ m ∈ forbiddenModules, ∀ keyword ∈ ["import ", "from "],
      ofChar '\n' ∉ text (keyword ++ m) := by decide
  have place := statementsOf_onward listed (List.mem_of_mem_head? head)
  exact ⟨keyword, word, lineFeeds_infix (oneLine m forbidden keyword word)
    (spelled.isInfix.trans place.isInfix)⟩

/-- A red flag that is not hidden is noticed. -/
theorem redFlag_noticed {depth : ℕ} {python : Interpreter} {req : BuildRequest}
    {toolSource : Bytes} (flag : redFlag python req toolSource = true)
    (shown : ¬ Hidden depth python req toolSource) :
    Noticed depth req (decodeIgnore toolSource) := by
  simp only [redFlag, Bool.or_eq_true] at flag
  rcases flag with (host | pii) | imported
  · obtain ⟨required, d, listed, foreign⟩ := foreignHost_iff.mp host
    exact absurd (.host required listed foreign) shown
  · obtain ⟨v, read, p, field, named⟩ := asksForPii_iff.mp pii
    rcases namesField_iff.mp named with ⟨members, fields, w, rfl, properties, key⟩ |
      ⟨part, inside, deeper⟩
    · by_cases large : ∀ w, loads depth (text req.inputSchemaJson) ≠ .ok w
      · exact absurd (.tooLarge read field named large) shown
      · obtain ⟨w, loaded⟩ := not_forall_not.mp large
        obtain rfl := document_unique (document_of_loads loaded) ⟨_, _, read⟩
        exact .property loaded properties field key
    · exact absurd (.nested read inside field deeper) shown
  · obtain ⟨m, forbidden, statement, listed, named⟩ := importsForbidden_iff.mp imported
    have spelled : SpelledOut statement m := by
      by_contra respelled
      exact shown (.respelled listed forbidden named respelled)
    have read := listed
    unfold sourceStatements at read
    split at read
    · rename_i source decoded
      have utf8 : source <:+: decodeIgnore toolSource := by
        by_contra encoded
        exact shown (.encoded decoded encoded listed forbidden named)
      obtain ⟨keyword, word, found⟩ := spelledOut_infix read forbidden spelled
      have listedToo : ∀ m ∈ forbiddenModules, m ∈ forbiddenImports := by decide
      exact .spelled word (listedToo m forbidden) (found.trans utf8)
    · cases read

theorem redFlag_of_hidden {depth : ℕ} {python : Interpreter} {req : BuildRequest}
    {toolSource : Bytes} (hidden : Hidden depth python req toolSource) :
    redFlag python req toolSource = true := by
  simp only [redFlag, Bool.or_eq_true]
  cases hidden with
  | host required listed foreign =>
    exact .inl (.inl (foreignHost_iff.mpr ⟨required, _, listed, foreign⟩))
  | nested read inside field deeper =>
    exact .inl (.inr (asksForPii_iff.mpr
      ⟨_, read, _, field, namesField_iff.mpr (.inr ⟨_, inside, deeper⟩)⟩))
  | tooLarge read field named large =>
    exact .inl (.inr (asksForPii_iff.mpr ⟨_, read, _, field, named⟩))
  | respelled listed forbidden named respelled =>
    exact .inr (importsForbidden_iff.mpr ⟨_, forbidden, _, listed, named⟩)
  | encoded decoded encoded listed forbidden named =>
    exact .inr (importsForbidden_iff.mpr ⟨_, forbidden, _, listed, named⟩)

def EscalationComplete (depth : ℕ) (python : Interpreter) (req : BuildRequest)
    (toolSource : Bytes) : Prop :=
  redFlag python req toolSource = true → (policyEscalate depth req toolSource).riskTier = .high

/-- A red flag is missed exactly if the request is not of high risk yet, nothing is noticed
    and a flag is hidden. -/
theorem escalationComplete_iff (depth : ℕ) (python : Interpreter) (req : BuildRequest)
    (toolSource : Bytes) : EscalationComplete depth python req toolSource ↔
      req.riskTier = .high ∨ Noticed depth req (decodeIgnore toolSource) ∨
        ¬ Hidden depth python req toolSource := by
  rw [EscalationComplete, escalated_iff]
  constructor
  · intro complete
    by_cases hidden : Hidden depth python req toolSource
    · exact (complete (redFlag_of_hidden hidden)).imp id .inl
    · exact .inr (.inr hidden)
  · rintro (high | noticed | shown) flag
    · exact .inl high
    · exact .inr noticed
    · exact .inr (redFlag_noticed flag shown)

/-- Sources in UTF-8 whose names are in their normal form. -/
def plainPython : Interpreter := ⟨decodeStrict, id⟩

def openedRequest : BuildRequest where
  id := ⟨0x20⟩
  requestedBy := .mother
  purpose := "Send the weekly report to the address on file."
  toolName := "report_sender"
  inputSchemaJson := "\x7b\"type\": \"object\"\x7d"
  outputSchemaJson := "\x7b\"type\": \"object\"\x7d"
  networkRequired := true
  allowedDomains := ["evil.example.com"]
  riskTier := .low
  maxWallSeconds := 90
  createdAt := ⟨"2026-04-18T00:00:00Z"⟩
  purpose_fits := by decide
  toolName_fits := by decide
  allowedDomains_fit := by decide
  maxWallSeconds_fits := by decide

def nestedRequest : BuildRequest :=
  { openedRequest with
    networkRequired := false
    inputSchemaJson := "\x7b\"properties\": \x7b\"user\": \x7b\"properties\": " ++
      "\x7b\"email\": \x7b\x7d\x7d\x7d\x7d\x7d" }

def closedRequest : BuildRequest := { openedRequest with networkRequired := false }

def quietSource : Bytes := (text "import json\n").flatMap encodeChar

def picklingSource : Bytes := (text "import json, pickle\n").flatMap encodeChar

/-- Each of the red flags can be missed. -/
theorem red_flags_missed : ¬ EscalationComplete 1000 plainPython openedRequest quietSource ∧
    ¬ EscalationComplete 1000 plainPython nestedRequest quietSource ∧
    ¬ EscalationComplete 1000 plainPython closedRequest picklingSource := by
  have missed : ∀ req toolSource, redFlag plainPython req toolSource = true ∧
      (policyEscalate 1000 req toolSource).riskTier = .low →
      ¬ EscalationComplete 1000 plainPython req toolSource := by
    rintro req toolSource ⟨flag, low⟩ complete
    exact absurd (low.symm.trans (complete flag)) (by decide)
  exact ⟨missed _ _ (by decide +kernel), missed _ _ (by decide +kernel),
    missed _ _ (by decide +kernel)⟩

end CodeBuilder
