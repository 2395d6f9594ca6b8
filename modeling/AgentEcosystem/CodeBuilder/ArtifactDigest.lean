import AgentEcosystem.CodeBuilder.Builder
import AgentEcosystem.Preregistration.CanonicalRoundTrip
import AgentEcosystem.Semantics.SuffixCode
import AgentEcosystem.Text.Utf8RoundTrip

/-!
What a digest says about an artifact. The three parts are hashed one behind the
other: the request, which comes last, can be told from what stands before it, but
nothing marks where the tool ends and its tests begin.
-/
namespace CodeBuilder
open AgentSchemas CanonicalJson JsonText Raising SuffixCode UnicodeText

/-- Where a byte of a flat object stands, behind its opening brace. -/
inductive Place where
  | outside | inside | escaped
  /-- Right behind the closing quote of a string. -/
  | closed
  deriving DecidableEq

def quoteByte : UInt8 := 0x22
def backslashByte : UInt8 := 0x5C
def braceByte : UInt8 := 0x7B

def delimiters : Bytes := [0x2C, 0x3A, 0x5D, 0x7D]

/-- A brace stands inside a string, and a string is followed by a delimiter. -/
def place : Place → UInt8 → Option Place
  | .outside, b =>
    if b = quoteByte then some .inside else if b = braceByte then none else some .outside
  | .inside, b =>
    if b = quoteByte then some .closed else if b = backslashByte then some .escaped
    else some .inside
  | .escaped, b => if b = braceByte then none else some .inside
  | .closed, b => if b ∈ delimiters then some .outside else none

def Scans (s : Place) (t : Text) (s' : Place) : Prop :=
  scan place s (t.flatMap encodeChar) = some s'

theorem Scans.append {s s' r : Place} {t u : Text} (first : Scans s t s') (second : Scans s' u r) :
    Scans s (t ++ u) r := by
  unfold Scans
  rw [List.flatMap_append]
  exact scan_trans place first second

theorem scans_nil (s : Place) : Scans s [] s := rfl

/- Where each character stays, the text stays. -/
theorem scans_stays {s : Place} {t : Text} (stays : ∀ c ∈ t, Scans s [c] s) : Scans s t s := by
  induction t with
  | nil => exact scans_nil s
  | cons c t ih =>
    have first : Scans s [c] s := stays c List.mem_cons_self
    exact first.append (ih fun d mem => stays d (List.mem_cons_of_mem c mem))

theorem encodeChar_ascii {c : CodePoint} (ascii : c.val < 0x80) :
    encodeChar c = [UInt8.ofNat c.val] := if_pos ascii

theorem encodeChar_high {c : CodePoint} (high : 0x80 ≤ c.val) :
    ∀ b ∈ encodeChar c, 0x80 ≤ b.toNat := by
  have bound := c.isLt
  have value : ∀ n, n < 256 → (UInt8.ofNat n).toNat = n := by
    intro n small
    rw [UInt8.toNat_ofNat']
    omega
  intro b mem
  unfold encodeChar at mem
  rw [if_neg (by omega)] at mem
  split at mem
  · simp only [List.mem_cons, List.not_mem_nil, or_false] at mem
    rcases mem with rfl | rfl <;> rw [value _ (by omega)] <;> omega
  · split at mem
    · simp only [List.mem_cons, List.not_mem_nil, or_false] at mem
      rcases mem with rfl | rfl | rfl <;> rw [value _ (by omega)] <;> omega
    · simp only [List.mem_cons, List.not_mem_nil, or_false] at mem
      rcases mem with rfl | rfl | rfl | rfl <;> rw [value _ (by omega)] <;> omega

theorem place_inside {b : UInt8} (notQuote : b.toNat ≠ 0x22) (notBackslash : b.toNat ≠ 0x5C) :
    place .inside b = some .inside := by
  have quote : b ≠ quoteByte := fun same => notQuote (congrArg UInt8.toNat same)
  have backslash : b ≠ backslashByte := fun same => notBackslash (congrArg UInt8.toNat same)
  rw [place, if_neg quote, if_neg backslash]

theorem place_outside {b : UInt8} (notQuote : b.toNat ≠ 0x22) (notBrace : b.toNat ≠ 0x7B) :
    place .outside b = some .outside := by
  have quote : b ≠ quoteByte := fun same => notQuote (congrArg UInt8.toNat same)
  have brace : b ≠ braceByte := fun same => notBrace (congrArg UInt8.toNat same)
  rw [place, if_neg quote, if_neg brace]

theorem scans_inside {c : CodePoint} (notQuote : c ≠ ofChar '"') (notBackslash : c ≠ ofChar '\\') :
    Scans .inside [c] .inside := by
  have quote : c.val ≠ 0x22 := fun same => notQuote (Fin.ext same)
  have backslash : c.val ≠ 0x5C := fun same => notBackslash (Fin.ext same)
  apply scan_stays
  intro b mem
  rw [List.flatMap_singleton] at mem
  rcases Nat.lt_or_ge c.val 0x80 with ascii | high
  · rw [encodeChar_ascii ascii, List.mem_singleton] at mem
    have value : b.toNat = c.val := by
      rw [mem, UInt8.toNat_ofNat']
      omega
    exact place_inside (by omega) (by omega)
  · have byte := encodeChar_high high b mem
    exact place_inside (by omega) (by omega)

theorem scans_digit {c : CodePoint} (digit : isAsciiDigit c = true) :
    Scans .outside [c] .outside := by
  simp only [isAsciiDigit, Bool.and_eq_true, decide_eq_true_eq] at digit
  apply scan_stays
  intro b mem
  rw [List.flatMap_singleton, encodeChar_ascii (by omega), List.mem_singleton] at mem
  have value : b.toNat = c.val := by
    rw [mem, UInt8.toNat_ofNat']
    omega
  exact place_outside (by omega) (by omega)

theorem scans_hexDigit (n : ℕ) : Scans .inside [hexDigit (n % 16)] .inside := by
  have all : ∀ d : Fin 16, hexDigit d.val ≠ ofChar '"' ∧ hexDigit d.val ≠ ofChar '\\' := by decide
  obtain ⟨quote, backslash⟩ := all ⟨n % 16, Nat.mod_lt n (by decide)⟩
  exact scans_inside quote backslash

theorem scans_writeChar (c : CodePoint) : Scans .inside (writeChar false c) .inside := by
  unfold writeChar
  split
  · next escaped found =>
    obtain ⟨pair, mem, _, _, rfl⟩ := shortEscape_some found
    simp only [shortEscapes, List.mem_cons, List.not_mem_nil, or_false] at mem
    rcases mem with rfl | rfl | rfl | rfl | rfl | rfl | rfl | rfl <;> rfl
  · next plain =>
    obtain ⟨notQuote, notBackslash⟩ := shortEscape_none plain
    split
    · have letter : Scans .inside (text "\\u") .inside := rfl
      have first := (scans_hexDigit (c.val / 4096)).append (scans_hexDigit (c.val / 256))
      have second := (scans_hexDigit (c.val / 16)).append (scans_hexDigit c.val)
      exact letter.append (first.append second)
    · exact scans_inside notQuote notBackslash

theorem scans_writeString (s : Text) : Scans .outside (writeString false s) .closed := by
  have opening : Scans .outside [ofChar '"'] .inside := rfl
  have closing : Scans .inside [ofChar '"'] .closed := rfl
  have body : Scans .inside (s.flatMap (writeChar false)) .inside := by
    induction s with
    | nil => exact scans_nil .inside
    | cons c s ih => exact (scans_writeChar c).append ih
  exact (opening.append body).append closing

def Settles (t : Text) : Prop := Scans .outside t .outside ∨ Scans .outside t .closed

theorem Settles.followed {t u : Text} (h : Settles t) (between : Scans .outside u .outside)
    (behind : Scans .closed u .outside) : Scans .outside (t ++ u) .outside := by
  rcases h with open_ | closed
  · exact open_.append between
  · exact closed.append behind

theorem Settles.after {t u : Text} (first : Scans .outside t .outside) (h : Settles u) :
    Settles (t ++ u) := by
  rcases h with open_ | closed
  · exact .inl (first.append open_)
  · exact .inr (first.append closed)

theorem settles_string (s : Text) : Settles (writeString false s) := .inr (scans_writeString s)

theorem settles_bool (b : Bool) : Settles (text (if b then "true" else "false")) := by
  cases b with
  | false => exact .inl rfl
  | true => exact .inl rfl

theorem settles_int (n : ℤ) : Settles (text (toString n)) := by
  left
  have digits : Scans .outside (digitText n.natAbs) .outside :=
    scans_stays fun c mem => scans_digit (digitText_digits n.natAbs c mem)
  rw [text_toString]
  split
  · have minus : Scans .outside [ofChar '-'] .outside := rfl
    exact minus.append digits
  · exact digits

theorem settles_join {ts : List Text} (h : ∀ t ∈ ts, Settles t) : Settles (joinComma ts) := by
  induction ts with
  | nil => exact .inl (scans_nil .outside)
  | cons t rest ih =>
    have first := h t List.mem_cons_self
    cases rest with
    | nil => exact first
    | cons u rest =>
      have later := ih fun v mem => h v (List.mem_cons_of_mem t mem)
      exact later.after (first.followed rfl rfl)

theorem settles_list {ts : List Text} (h : ∀ t ∈ ts, Settles t) :
    Settles (text "[" ++ joinComma ts ++ text "]") := by
  have opening : Scans .outside (text "[") .outside := rfl
  exact .inl (((settles_join h).after opening).followed rfl rfl)

def BuildRequest.members (req : BuildRequest) : List (Text × PyValue) :=
  [(text "id", .str (text req.id.str)),
    (text "requested_by", .str (text req.requestedBy.value)),
    (text "purpose", .str (text req.purpose)),
    (text "tool_name", .str (text req.toolName)),
    (text "input_schema_json", .str (text req.inputSchemaJson)),
    (text "output_schema_json", .str (text req.outputSchemaJson)),
    (text "network_required", .bool req.networkRequired),
    (text "allowed_domains", .list (req.allowedDomains.map fun d => .str (text d))),
    (text "risk_tier", .str (text req.riskTier.value)),
    (text "max_wall_seconds", .int req.maxWallSeconds),
    (text "created_at", .str (text req.createdAt.iso))]

theorem modelDump_members (req : BuildRequest) :
    req.modelDump = .dict (strMembers req.members) := rfl

/-- A string, a boolean, a number or a list of strings. -/
inductive Simple : PyValue → Prop where
  | str (s : Text) : Simple (.str s)
  | bool (b : Bool) : Simple (.bool b)
  | int (n : ℤ) : Simple (.int n)
  | strs (ss : List Text) : Simple (.list (ss.map .str))

theorem Simple.plain {v : PyValue} (simple : Simple v) : Plain v := by
  cases simple with
  | str s => exact .str s
  | bool b => exact .bool b
  | int n => exact .int n
  | strs ss =>
    apply Plain.list
    intro v mem
    obtain ⟨s, _, rfl⟩ := List.mem_map.mp mem
    exact .str s

theorem Simple.settles {v : PyValue} (simple : Simple v) : Settles (written v) := by
  cases simple with
  | str s => exact settles_string s
  | bool b => exact settles_bool b
  | int n => exact settles_int n
  | strs ss =>
    have dumped : ∀ v ∈ ss.map PyValue.str, dumps nanFirst v = .ok (written v) := by
      intro v mem
      obtain ⟨s, _, rfl⟩ := List.mem_map.mp mem
      exact dumps_plain nanFirst (.str s)
    rw [written, dumps_list dumped]
    apply settles_list
    intro t mem
    obtain ⟨v, member, rfl⟩ := List.mem_map.mp mem
    obtain ⟨s, _, rfl⟩ := List.mem_map.mp member
    exact settles_string s

theorem members_simple (req : BuildRequest) : ∀ m ∈ req.members, Simple m.2 := by
  simp only [BuildRequest.members, List.forall_mem_cons, List.not_mem_nil, false_implies,
    implies_true, and_true]
  have domains : Simple (.list (req.allowedDomains.map fun d => .str (text d))) := by
    have strs := Simple.strs (req.allowedDomains.map text)
    rwa [List.map_map] at strs
  exact ⟨.str _, .str _, .str _, .str _, .str _, .str _, .bool _, domains, .str _, .int _, .str _⟩

def requestKeys : List Text :=
  ["id", "requested_by", "purpose", "tool_name", "input_schema_json", "output_schema_json",
    "network_required", "allowed_domains", "risk_tier", "max_wall_seconds", "created_at"].map text

theorem members_keys (req : BuildRequest) : req.members.map Prod.fst = requestKeys := rfl

theorem members_distinct (req : BuildRequest) : (req.members.map Prod.fst).Nodup := by
  rw [members_keys]
  decide

theorem modelDump_plain (req : BuildRequest) : Plain req.modelDump := by
  rw [modelDump_members]
  apply Plain.dict
  · intro m mem
    obtain ⟨n, _, rfl⟩ := List.mem_map.mp mem
    exact ⟨n.1, rfl⟩
  · rw [keys_strMembers]
    exact (members_distinct req).map fun _ _ => DictKey.str.inj
  · intro m mem
    obtain ⟨n, member, rfl⟩ := List.mem_map.mp mem
    exact (members_simple req n member).plain

def requestText (req : BuildRequest) : Text := written req.modelDump ++ text "\n"

theorem canonicalDumps_request (req : BuildRequest) :
    canonicalDumps req.modelDump = .ok (requestText req) := canonicalDumps_plain (modelDump_plain req)

theorem requestText_characters (req : BuildRequest) : Characters (requestText req) := by
  obtain ⟨t, dumped, chars⟩ := canonicalDumps_ok (modelDump_encodes req)
  rw [Except.ok.inj ((canonicalDumps_request req).symm.trans dumped)]
  exact chars

def memberTexts (req : BuildRequest) : List Text :=
  (sortByKey (req.members.map writtenMember)).map Prod.snd

theorem requestText_eq (req : BuildRequest) : requestText req =
    text "\x7b" ++ (joinComma (memberTexts req) ++ text "\x7d\n") := by
  have dumped := dumps_dict fun m mem => dumps_plain nanFirst (members_simple req m mem).plain
  rw [requestText, written, modelDump_members, dumped]
  change text "\x7b" ++ joinComma (memberTexts req) ++ text "\x7d" ++ text "\n" = _
  rw [List.append_assoc, List.append_assoc]
  rfl

theorem memberTexts_settle (req : BuildRequest) : ∀ t ∈ memberTexts req, Settles t := by
  intro t mem
  obtain ⟨m, sorted, rfl⟩ := List.mem_map.mp mem
  obtain ⟨n, member, rfl⟩ := List.mem_map.mp ((perm_sortByKey _).mem_iff.mp sorted)
  have key : Scans .outside (writeString false n.1 ++ text ":") .outside :=
    (settles_string n.1).followed rfl rfl
  exact (members_simple req n member).settles.after key

theorem memberTexts_first (req : BuildRequest) :
    ∃ t rest, memberTexts req = (text "\"a" ++ t) :: rest := by
  have least : ∀ k ∈ requestKeys, k ≤ text "allowed_domains" → k = text "allowed_domains" := by
    decide
  have domains : text "allowed_domains" ∈ req.members.map Prod.fst := by
    rw [members_keys]
    decide
  obtain ⟨n, member, key⟩ := List.mem_map.mp domains
  have perm := perm_sortByKey (req.members.map writtenMember)
  have ordered := sortByKey_pairwise (req.members.map writtenMember)
  have inside := perm.mem_iff.mpr (List.mem_map_of_mem member)
  rw [memberTexts]
  generalize sortByKey (req.members.map writtenMember) = sorted at perm ordered inside ⊢
  rcases sorted with _ | ⟨m, rest⟩
  · exact absurd inside List.not_mem_nil
  · have below : m.1 ≤ text "allowed_domains" := by
      rw [← key]
      rcases List.mem_cons.mp inside with same | later
      · rw [← same]
        exact le_rfl
      · exact List.rel_of_pairwise_cons ordered later
    obtain ⟨p, memberP, rfl⟩ := List.mem_map.mp (perm.mem_iff.mp List.mem_cons_self)
    have first := least p.1 (members_keys req ▸ List.mem_map_of_mem memberP) below
    have opening : writeString false p.1 = text "\"a" ++ text "llowed_domains\"" := by
      rw [first]
      decide
    refine ⟨text "llowed_domains\"" ++ text ":" ++ written p.2, rest.map Prod.snd, ?_⟩
    rw [List.map_cons, writtenMember, opening]
    simp only [List.append_assoc]

def requestBytes (req : BuildRequest) : Bytes := (requestText req).flatMap encodeChar

def requestMark : Bytes := (text "\x7b\"a").flatMap encodeChar

/- A brace and a quote lead to the end of a string, and no `a` may stand there. -/
theorem requestMark_unreadable : Unreadable place requestMark := by
  intro s
  cases s <;> rfl

theorem joinComma_begins (t u : Text) (rest : List Text) :
    ∃ more, joinComma ((t ++ u) :: rest) = t ++ more := by
  cases rest with
  | nil => exact ⟨u, rfl⟩
  | cons v rest => exact ⟨u ++ ofChar ',' :: joinComma (v :: rest), by rw [joinComma_cons]; simp⟩

theorem requestBytes_codeWord (req : BuildRequest) :
    CodeWord place .outside requestMark (requestBytes req) := by
  obtain ⟨t, rest, first⟩ := memberTexts_first req
  obtain ⟨more, joined⟩ := joinComma_begins (text "\"a") t rest
  constructor
  · refine ⟨(more ++ text "\x7d\n").flatMap encodeChar, ?_⟩
    rw [requestBytes, requestText_eq, first, joined, requestMark, ← List.flatMap_append,
      List.append_assoc, ← List.append_assoc]
    rfl
  · have members := settles_join (memberTexts_settle req)
    have body : Scans .outside (joinComma (memberTexts req) ++ text "\x7d\n") .outside :=
      members.followed rfl rfl
    have brace : (text "\x7b").flatMap encodeChar = [braceByte] := rfl
    rw [requestBytes, requestText_eq, List.flatMap_append, brace, List.singleton_append,
      List.tail_cons]
    exact ⟨.outside, body⟩

structure ArtifactParts where
  toolPy : Bytes
  testPy : Bytes
  buildRequest : BuildRequest

def ArtifactParts.message (p : ArtifactParts) : Bytes :=
  p.toolPy ++ p.testPy ++ requestBytes p.buildRequest

def ArtifactParts.sign (sha256 : Sha256) (p : ArtifactParts) : Except BuildError String :=
  computeArtifactSha sha256 p.toolPy p.testPy p.buildRequest

theorem sign_message (sha256 : Sha256) (p : ArtifactParts) :
    p.sign sha256 = .ok (sha256.hexdigest p.message) := by
  rw [ArtifactParts.sign, computeArtifactSha, canonicalDumps_request]
  simp only [Except.mapError, bind, Except.bind,
    encoded_characters (requestText_characters p.buildRequest)]
  rfl

def NoCollision (sha256 : Sha256) (p q : ArtifactParts) : Prop :=
  sha256.hexdigest p.message = sha256.hexdigest q.message → p.message = q.message

/- The request stands behind the two files, and is told from them. -/
theorem message_eq_iff {p q : ArtifactParts} : p.message = q.message ↔
    p.toolPy ++ p.testPy = q.toolPy ++ q.testPy ∧
      canonicalDumps p.buildRequest.modelDump = canonicalDumps q.buildRequest.modelDump := by
  rw [canonicalDumps_request, canonicalDumps_request]
  constructor
  · intro same
    obtain ⟨files, requests⟩ := append_code_inj requestMark_unreadable
      (requestBytes_codeWord p.buildRequest) (requestBytes_codeWord q.buildRequest) same
    have texts := encodeChar_injective (requestText_characters p.buildRequest)
      (requestText_characters q.buildRequest) requests
    exact ⟨files, congrArg Except.ok texts⟩
  · rintro ⟨files, texts⟩
    rw [ArtifactParts.message, ArtifactParts.message, files, requestBytes, requestBytes,
      Except.ok.inj texts]

def toolPath (targetRoot sha : String) : String := targetRoot ++ "/" ++ sha ++ "/tool.py"

def testPath (targetRoot sha : String) : String := targetRoot ++ "/" ++ sha ++ "/test_tool.py"

theorem outcome_writeArtifactFiles (sha256 : Sha256) (targetRoot : String) (p : ArtifactParts)
    (files : Files) :
    let sha := sha256.hexdigest p.message
    outcome (writeArtifactFiles sha256 targetRoot p.toolPy p.testPy p.buildRequest) files =
      (.ok (toolPath targetRoot sha, testPath targetRoot sha, sha),
        Function.update (Function.update files (toolPath targetRoot sha) (some p.toolPy))
          (testPath targetRoot sha) (some p.testPy)) := by
  have signed : computeArtifactSha sha256 p.toolPy p.testPy p.buildRequest = _ :=
    sign_message sha256 p
  rw [writeArtifactFiles, signed]
  rfl

/- Digests are all of one length, so a path names its digest and its root. -/
theorem toolPath_inj {root root' sha sha' : String} (length : sha.length = sha'.length)
    (same : toolPath root sha = toolPath root' sha') : root = root' ∧ sha = sha' := by
  have chars := congrArg String.toList same
  simp only [toolPath, String.toList_append] at chars
  have shas : sha.toList.length = sha'.toList.length := by
    rw [String.length_toList, String.length_toList, length]
  obtain ⟨roots, digests⟩ := List.append_inj' (List.append_cancel_right chars) shas
  exact ⟨String.toList_injective (List.append_cancel_right roots), String.toList_injective digests⟩

theorem toolPath_ne_testPath {root root' sha sha' : String} :
    toolPath root sha ≠ testPath root' sha' := by
  intro same
  have chars := congrArg String.toList same
  have ending : "/test_tool.py".toList = "/test".toList ++ "_tool.py".toList := by decide
  simp only [toolPath, testPath, String.toList_append, ending] at chars
  rw [← List.append_assoc _ "/test".toList] at chars
  have lengths : "/tool.py".toList.length = "_tool.py".toList.length := by decide
  obtain ⟨_, last⟩ := List.append_inj' chars lengths
  exact absurd last (by decide)

def WrittenAt (sha256 : Sha256) (targetRoot : String) (p : ArtifactParts) (path : String) : Prop :=
  ∃ files testPath sha,
    (outcome (writeArtifactFiles sha256 targetRoot p.toolPy p.testPy p.buildRequest) files).1 =
      .ok (path, testPath, sha)

theorem writtenAt_iff {sha256 : Sha256} {targetRoot path : String} {p : ArtifactParts} :
    WrittenAt sha256 targetRoot p path ↔
      path = toolPath targetRoot (sha256.hexdigest p.message) := by
  constructor
  · rintro ⟨files, testPath, sha, written⟩
    rw [outcome_writeArtifactFiles] at written
    cases written
    rfl
  · rintro rfl
    exact ⟨fun _ => none, _, _, by rw [outcome_writeArtifactFiles]⟩

/-- The digest identifies the request and what the two files hold together; it
    identifies each of them exactly where the tools are of one length. The paths
    under which two artifacts are written are the same for the same root and digest. -/
theorem artifact_digest_iff {sha256 : Sha256} {p q : ArtifactParts}
    (injective : NoCollision sha256 p q) :
    (p.sign sha256 = q.sign sha256 ↔
      p.toolPy ++ p.testPy = q.toolPy ++ q.testPy ∧
        canonicalDumps p.buildRequest.modelDump = canonicalDumps q.buildRequest.modelDump) ∧
    (p.sign sha256 = q.sign sha256 →
      (p.toolPy = q.toolPy ∧ p.testPy = q.testPy ↔ p.toolPy.length = q.toolPy.length)) ∧
    (∀ {root root' path path'}, WrittenAt sha256 root p path → WrittenAt sha256 root' q path' →
      (path = path' ↔ root = root' ∧ p.sign sha256 = q.sign sha256)) := by
  have same_iff : p.sign sha256 = q.sign sha256 ↔ p.message = q.message := by
    rw [sign_message, sign_message]
    constructor
    · intro same
      exact injective (Except.ok.inj same)
    · intro same
      rw [same]
  refine ⟨same_iff.trans message_eq_iff, ?_, ?_⟩
  · intro same
    obtain ⟨files, _⟩ := message_eq_iff.mp (same_iff.mp same)
    constructor
    · rintro ⟨tools, _⟩
      rw [tools]
    · exact List.append_inj files
  · intro root root' path path' written written'
    rw [writtenAt_iff] at written written'
    have lengths : (sha256.hexdigest p.message).length = (sha256.hexdigest q.message).length := by
      rw [(sha256.hex _).1, (sha256.hex _).1]
    rw [written, written', sign_message, sign_message, Except.ok.injEq]
    constructor
    · exact toolPath_inj lengths
    · rintro ⟨rfl, digests⟩
      rw [digests]

def sorterRequest : BuildRequest where
  id := ⟨0x1e⟩
  requestedBy := .mother
  purpose := "Sort the keys of a payload for the weekly report."
  toolName := "key_sorter"
  inputSchemaJson := "\x7b\"type\": \"object\"\x7d"
  outputSchemaJson := "\x7b\"type\": \"object\"\x7d"
  networkRequired := false
  allowedDomains := ["api.polar.sh"]
  riskTier := .low
  maxWallSeconds := 60
  createdAt := ⟨"2026-04-18T00:00:00Z"⟩
  purpose_fits := by decide
  toolName_fits := by decide
  allowedDomains_fit := by decide
  maxWallSeconds_fits := by decide

def twoLines : ArtifactParts :=
  ⟨(text "run = sorted\n").flatMap encodeChar, (text "import tool\n").flatMap encodeChar,
    sorterRequest⟩

def oneFile : ArtifactParts :=
  ⟨(text "run = sorted\nimport tool\n").flatMap encodeChar, [], sorterRequest⟩

theorem oneFile_bytes :
    twoLines.toolPy ++ twoLines.testPy = oneFile.toolPy ++ oneFile.testPy := by
  decide

theorem oneFile_message : oneFile.message = twoLines.message := by
  rw [message_eq_iff]
  exact ⟨oneFile_bytes.symm, rfl⟩

/-- The digest does not say where the tool ends. -/
theorem boundary_not_signed : (∀ sha256, NoCollision sha256 twoLines oneFile ∧
    twoLines.sign sha256 = oneFile.sign sha256) ∧ twoLines.toolPy ≠ oneFile.toolPy := by
  constructor
  · intro sha256
    rw [sign_message, sign_message, oneFile_message]
    exact ⟨fun _ => oneFile_message.symm, rfl⟩
  · decide

def twoLinesSha256 : Sha256 where
  hexdigest bytes :=
    if bytes = twoLines.message then
      "ffc9a0f235ef09269d67c627c8ff32e6aea720d60e3861495551740377b94d7b"
    else "ffffffffffffffffffffffffffffffffffffffffffffffffffffffffffffffff"
  hex := by
    intro bytes
    apply hex_of_all
    split <;> decide +kernel

theorem artifact_digest_twoLines :
    twoLines.sign twoLinesSha256 = oneFile.sign twoLinesSha256 ∧
      (twoLines.toolPy = oneFile.toolPy ∧ twoLines.testPy = oneFile.testPy ↔
        twoLines.toolPy.length = oneFile.toolPy.length) := by
  have injective : NoCollision twoLinesSha256 twoLines oneFile := fun _ => oneFile_message.symm
  obtain ⟨same, files, _⟩ := artifact_digest_iff injective
  have signed := same.mpr ⟨oneFile_bytes, rfl⟩
  exact ⟨signed, files signed⟩

end CodeBuilder
