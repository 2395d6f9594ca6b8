import AgentEcosystem.Gmail.PushWebhook
import AgentEcosystem.Operator.CommandGrammar

/-!
The canned reply to a message that is no command. Its lines are read back as they
were written, and each line behind the heading is a form that the parser accepts
when it is filled in.
-/
namespace PushWebhook
open AgentSchemas DecimalArithmetic JsonText OperatorParser UnicodeText

/-- `"\n".join(lines)` -/
def joinLines (lines : List Text) : Text := [ofChar '\n'].intercalate lines

/-- `t.split("\n")` -/
def linesOf (t : Text) : List Text := t.splitOn (ofChar '\n')

def OneLine (t : Text) : Prop := ofChar '\n' ∉ t

theorem linesOf_joinLines {lines : List Text} (one : ∀ line ∈ lines, OneLine line)
    (some : lines ≠ []) : linesOf (joinLines lines) = lines :=
  List.splitOn_intercalate (ofChar '\n') one some

def formLetterBody (form : FormLetter) : Text :=
  let lines := [text "Sorry — your message didn't match any of the allowed commands.",
    text "Reason: " ++ form.reason, [], text "Allowed commands:"]
  joinLines (lines ++ form.allowedVerbs.map fun verb => text "  " ++ text verb)

/-- Upper case brings no line break into a word. -/
def KeepsLines (data : StrData) : Prop := ∀ t, Solid t → OneLine (data.upper t)

theorem oneLine_of_all {t : Text} (all : (t.all (· ≠ ofChar '\n')) = true) : OneLine t := by
  intro mem
  have differs := List.all_eq_true.mp all _ mem
  simp at differs

section Reasons
variable {rawSha : String} {data : StrData} {body : Text} {f : FormLetter}

theorem reject_oneLine {reason : Text} (one : OneLine reason)
    (rejected : rejectWith rawSha reason = .formLetter f) :
    OneLine f.reason ∧ f.allowedVerbs = allowedVerbs := by
  cases rejected
  exact ⟨one, rfl⟩

theorem withUuid_oneLine {requirement : String} {message : Uuid → OperatorMessage}
    {args : List Text} (one : OneLine (text requirement))
    (rejected : withUuid rawSha requirement message args = .formLetter f) :
    OneLine f.reason ∧ f.allowedVerbs = allowedVerbs := by
  unfold withUuid at rejected
  split at rejected
  · split_ifs at rejected
    exact reject_oneLine one rejected
  · exact reject_oneLine one rejected

theorem alone_oneLine {requirement : String} {message : OperatorMessage} {args : List Text}
    (one : OneLine (text requirement))
    (rejected : alone rawSha requirement message args = .formLetter f) :
    OneLine f.reason ∧ f.allowedVerbs = allowedVerbs := by
  unfold alone at rejected
  split at rejected
  · cases rejected
  · exact reject_oneLine one rejected

theorem kill_oneLine {args : List Text} (rejected : kill rawSha data args = .formLetter f) :
    OneLine f.reason ∧ f.allowedVerbs = allowedVerbs := by
  have one : OneLine (text killRequirement) := oneLine_of_all (by decide)
  unfold kill at rejected
  split at rejected
  · split_ifs at rejected
    exact reject_oneLine one rejected
  · exact reject_oneLine one rejected

theorem emergencyTransfer_oneLine {args : List Text}
    (rejected : emergencyTransfer rawSha data body args = .formLetter f) :
    OneLine f.reason ∧ f.allowedVerbs = allowedVerbs := by
  unfold emergencyTransfer at rejected
  split at rejected
  · split_ifs at rejected
    · exact reject_oneLine (oneLine_of_all (by decide)) rejected
    · split at rejected
      · exact reject_oneLine (oneLine_of_all (by decide)) rejected
      · cases rejected
  · exact reject_oneLine (oneLine_of_all (by decide)) rejected

theorem command_oneLine {verb : Text} {args : List Text} (one : OneLine verb)
    (rejected : command rawSha data body verb args = .formLetter f) :
    OneLine f.reason ∧ f.allowedVerbs = allowedVerbs := by
  unfold command at rejected
  split_ifs at rejected
  · exact withUuid_oneLine (oneLine_of_all (by decide)) rejected
  · exact withUuid_oneLine (oneLine_of_all (by decide)) rejected
  · exact alone_oneLine (oneLine_of_all (by decide)) rejected
  · exact alone_oneLine (oneLine_of_all (by decide)) rejected
  · exact kill_oneLine rejected
  · exact withUuid_oneLine (oneLine_of_all (by decide)) rejected
  · exact emergencyTransfer_oneLine rejected
  · have unknown : OneLine (text "unknown_verb:" ++ verb) := by
      intro mem
      rcases List.mem_append.mp mem with inside | inside
      · exact oneLine_of_all (by decide) inside
      · exact one inside
    exact reject_oneLine unknown rejected

theorem answer_oneLine (keeps : KeepsLines data) {parts : List Text}
    (solid : ∀ part ∈ parts, Solid part)
    (rejected : answer data rawSha body parts = .formLetter f) :
    OneLine f.reason ∧ f.allowedVerbs = allowedVerbs := by
  cases parts with
  | nil => exact reject_oneLine (oneLine_of_all (by decide)) rejected
  | cons verb args => exact command_oneLine (keeps verb (solid verb List.mem_cons_self)) rejected

end Reasons

/-- A reply whose reason is one line has that line second and a command on each line
    behind the fourth. -/
theorem lines_formLetterBody {f : FormLetter} (one : OneLine f.reason)
    (verbs : f.allowedVerbs = allowedVerbs) :
    linesOf (formLetterBody f) =
      [text "Sorry — your message didn't match any of the allowed commands.",
        text "Reason: " ++ f.reason, [], text "Allowed commands:"] ++
        allowedVerbs.map fun verb => text "  " ++ text verb := by
  rw [formLetterBody, verbs]
  apply linesOf_joinLines
  · intro line mem
    rcases List.mem_append.mp mem with heading | command
    · simp only [List.mem_cons, List.not_mem_nil, or_false] at heading
      rcases heading with rfl | rfl | rfl | rfl
      · exact oneLine_of_all (by decide)
      · intro there
        rcases List.mem_append.mp there with inside | inside
        · exact oneLine_of_all (by decide) inside
        · exact one inside
      · exact List.not_mem_nil
      · exact oneLine_of_all (by decide)
    · obtain ⟨verb, listed, rfl⟩ := List.mem_map.mp command
      have all : ∀ verb ∈ allowedVerbs,
          ((text "  " ++ text verb).all (· ≠ ofChar '\n')) = true := by decide
      exact oneLine_of_all (all verb listed)
  · simp

def Fits (data : StrData) (form token : Text) : Prop :=
  if form = text "<amount_usd>" then (amountDigits data token).isSome = true
  else if form.head? = some (ofChar '<') then isUuid token = true
  else SameLetters form token

def FillsIn (data : StrData) (form subject : Text) : Prop :=
  List.Forall₂ (Fits data) (split form) (split subject)

def listedActions : List Action :=
  [.approve, .reject, .continue, .pause, .killChild, .killAll, .resume, .emergencyTransfer]

section Forms
variable {data : StrData} {parts : List Text}

theorem fits_word {form token : Text} (word : form.head? ≠ some (ofChar '<')) :
    Fits data form token ↔ SameLetters form token := by
  have notAmount : form ≠ text "<amount_usd>" := by
    rintro rfl
    exact word rfl
  rw [Fits, if_neg notAmount, if_neg word]

theorem fits_uuid {form token : Text} (bracket : form.head? = some (ofChar '<'))
    (notAmount : form ≠ text "<amount_usd>") : Fits data form token ↔ isUuid token = true := by
  rw [Fits, if_neg notAmount, if_pos bracket]

theorem fits_amount {token : Text} :
    Fits data (text "<amount_usd>") token ↔ (amountDigits data token).isSome = true := by
  rw [Fits, if_pos rfl]

theorem isUuid_of_spells {u : Uuid} {arg : Text} (id : Spells u.str arg) : isUuid arg = true :=
  (isUuid_iff.mpr id).1

theorem form_of {form : String} {a : Action} {words : List Text}
    (listed : (form, a) ∈ allowedVerbs.zip listedActions) (tokens : split (text form) = words)
    (fits : List.Forall₂ (Fits data) words parts) :
    ∃ form, (form, a) ∈ allowedVerbs.zip listedActions ∧
      List.Forall₂ (Fits data) (split (text form)) parts := by
  refine ⟨form, listed, ?_⟩
  rwa [tokens]

theorem form_of_uuid {form word hole : String} {verb arg : Text} {u : Uuid} {a : Action}
    (listed : (form, a) ∈ allowedVerbs.zip listedActions)
    (tokens : split (text form) = [text word, text hole])
    (plain : (text word).head? ≠ some (ofChar '<'))
    (bracket : (text hole).head? = some (ofChar '<')) (notAmount : text hole ≠ text "<amount_usd>")
    (spells : Spells word verb)
    (id : Spells u.str arg) :
    ∃ form, (form, a) ∈ allowedVerbs.zip listedActions ∧
      List.Forall₂ (Fits data) (split (text form)) [verb, arg] := by
  have first : Fits data (text word) verb := (fits_word plain).mpr spells
  have second : Fits data (text hole) arg :=
    (fits_uuid bracket notAmount).mpr (isUuid_of_spells id)
  exact form_of listed tokens (.cons first (.cons second .nil))

theorem form_of_denotes (ascii : ∀ t ∈ parts, Ascii t) {c : Command} (denotes : Denotes parts c) :
    ∃ form, (form, c.fields.1) ∈ allowedVerbs.zip listedActions ∧
      List.Forall₂ (Fits data) (split (text form)) parts := by
  cases denotes with
  | approve verb id =>
    have listed : ("APPROVE <proposal_id>", Action.approve) ∈ allowedVerbs.zip listedActions := by
      decide
    have tokens : split (text "APPROVE <proposal_id>") =
        [text "APPROVE", text "<proposal_id>"] := by decide
    exact form_of_uuid listed tokens (by decide) (by decide) (by decide) verb id
  | reject verb id =>
    have listed : ("REJECT <proposal_id>", Action.reject) ∈ allowedVerbs.zip listedActions := by
      decide
    have tokens : split (text "REJECT <proposal_id>") =
        [text "REJECT", text "<proposal_id>"] := by decide
    exact form_of_uuid listed tokens (by decide) (by decide) (by decide) verb id
  | resume verb id =>
    have listed : ("RESUME <event_id>", Action.resume) ∈ allowedVerbs.zip listedActions := by
      decide
    have tokens : split (text "RESUME <event_id>") = [text "RESUME", text "<event_id>"] := by decide
    exact form_of_uuid listed tokens (by decide) (by decide) (by decide) verb id
  | killChild verb id =>
    have listed : ("KILL <child_id>", Action.killChild) ∈ allowedVerbs.zip listedActions := by
      decide
    have tokens : split (text "KILL <child_id>") = [text "KILL", text "<child_id>"] := by decide
    exact form_of_uuid listed tokens (by decide) (by decide) (by decide) verb id
  | @killAll word arg verb all =>
    have listed : ("KILL ALL", Action.killAll) ∈ allowedVerbs.zip listedActions := by decide
    have tokens : split (text "KILL ALL") = [text "KILL", text "ALL"] := by decide
    have first : Fits data (text "KILL") word := (fits_word (by decide)).mpr verb
    have second : Fits data (text "ALL") arg := (fits_word (by decide)).mpr all
    exact form_of listed tokens (.cons first (.cons second .nil))
  | @«continue» word verb =>
    have listed : ("CONTINUE", Action.continue) ∈ allowedVerbs.zip listedActions := by decide
    have tokens : split (text "CONTINUE") = [text "CONTINUE"] := by decide
    have first : Fits data (text "CONTINUE") word := (fits_word (by decide)).mpr verb
    exact form_of listed tokens (.cons first .nil)
  | @pause word verb =>
    have listed : ("PAUSE", Action.pause) ∈ allowedVerbs.zip listedActions := by decide
    have tokens : split (text "PAUSE") = [text "PAUSE"] := by decide
    have first : Fits data (text "PAUSE") word := (fits_word (by decide)).mpr verb
    exact form_of listed tokens (.cons first .nil)
  | @emergencyTransfer word amount direction whole cents verb number pots =>
    have listed : ("EMERGENCY_TRANSFER <amount_usd> reserve->operating", Action.emergencyTransfer) ∈
        allowedVerbs.zip listedActions := by decide
    have tokens : split (text "EMERGENCY_TRANSFER <amount_usd> reserve->operating") =
        [text "EMERGENCY_TRANSFER", text "<amount_usd>", text "reserve->operating"] := by decide
    have first : Fits data (text "EMERGENCY_TRANSFER") word := (fits_word (by decide)).mpr verb
    have matched := (amountDigits_iff data (ascii amount (by simp))).mpr number
    have second : Fits data (text "<amount_usd>") amount := by
      rw [fits_amount, matched]
      rfl
    have third : Fits data (text "reserve->operating") direction :=
      (fits_word (by decide)).mpr pots
    exact form_of listed tokens (.cons first (.cons second (.cons third .nil)))

theorem filled_uuid {word hole : String} (plain : (text word).head? ≠ some (ofChar '<'))
    (bracket : (text hole).head? = some (ofChar '<')) (notAmount : text hole ≠ text "<amount_usd>")
    (fits : List.Forall₂ (Fits data) [text word, text hole] parts) :
    ∃ verb arg u, parts = [verb, arg] ∧ Spells word verb ∧ Spells (Uuid.str u) arg := by
  cases fits with
  | cons first rest =>
    cases rest with
    | cons second none =>
      cases none
      have matched := (fits_uuid bracket notAmount).mp second
      exact ⟨_, _, _, rfl, (fits_word plain).mp first, str_uuidOf matched⟩

theorem filled_word {word : String} (plain : (text word).head? ≠ some (ofChar '<'))
    (fits : List.Forall₂ (Fits data) [text word] parts) :
    ∃ verb, parts = [verb] ∧ Spells word verb := by
  cases fits with
  | cons first none =>
    cases none
    exact ⟨_, rfl, (fits_word plain).mp first⟩

/-- Whatever fills in a listed form is its command. -/
theorem denotes_of_form (ascii : ∀ t ∈ parts, Ascii t) {form : String} {a : Action}
    (listed : (form, a) ∈ allowedVerbs.zip listedActions)
    (fits : List.Forall₂ (Fits data) (split (text form)) parts) :
    ∃ c, Denotes parts c ∧ c.fields.1 = a := by
  simp only [allowedVerbs, listedActions, List.zip_cons_cons, List.zip_nil_left, List.mem_cons,
    Prod.mk.injEq, List.not_mem_nil, or_false] at listed
  rcases listed with ⟨rfl, rfl⟩ | ⟨rfl, rfl⟩ | ⟨rfl, rfl⟩ | ⟨rfl, rfl⟩ | ⟨rfl, rfl⟩ | ⟨rfl, rfl⟩ |
    ⟨rfl, rfl⟩ | ⟨rfl, rfl⟩
  · have tokens : split (text "APPROVE <proposal_id>") =
        [text "APPROVE", text "<proposal_id>"] := by decide
    rw [tokens] at fits
    obtain ⟨verb, arg, u, rfl, spells, id⟩ :=
      filled_uuid (by decide) (by decide) (by decide) fits
    exact ⟨_, .approve spells id, rfl⟩
  · have tokens : split (text "REJECT <proposal_id>") =
        [text "REJECT", text "<proposal_id>"] := by decide
    rw [tokens] at fits
    obtain ⟨verb, arg, u, rfl, spells, id⟩ :=
      filled_uuid (by decide) (by decide) (by decide) fits
    exact ⟨_, .reject spells id, rfl⟩
  · have tokens : split (text "CONTINUE") = [text "CONTINUE"] := by decide
    rw [tokens] at fits
    obtain ⟨verb, rfl, spells⟩ := filled_word (by decide) fits
    exact ⟨_, .continue spells, rfl⟩
  · have tokens : split (text "PAUSE") = [text "PAUSE"] := by decide
    rw [tokens] at fits
    obtain ⟨verb, rfl, spells⟩ := filled_word (by decide) fits
    exact ⟨_, .pause spells, rfl⟩
  · have tokens : split (text "KILL <child_id>") = [text "KILL", text "<child_id>"] := by decide
    rw [tokens] at fits
    obtain ⟨verb, arg, u, rfl, spells, id⟩ :=
      filled_uuid (by decide) (by decide) (by decide) fits
    exact ⟨_, .killChild spells id, rfl⟩
  · have tokens : split (text "KILL ALL") = [text "KILL", text "ALL"] := by decide
    rw [tokens] at fits
    cases fits with
    | cons first rest =>
      obtain ⟨arg, rfl, all⟩ := filled_word (by decide) rest
      exact ⟨_, .killAll ((fits_word (by decide)).mp first) all, rfl⟩
  · have tokens : split (text "RESUME <event_id>") = [text "RESUME", text "<event_id>"] := by decide
    rw [tokens] at fits
    obtain ⟨verb, arg, u, rfl, spells, id⟩ :=
      filled_uuid (by decide) (by decide) (by decide) fits
    exact ⟨_, .resume spells id, rfl⟩
  · have tokens : split (text "EMERGENCY_TRANSFER <amount_usd> reserve->operating") =
        [text "EMERGENCY_TRANSFER", text "<amount_usd>", text "reserve->operating"] := by decide
    rw [tokens] at fits
    cases fits with
    | cons first rest =>
      cases rest with
      | @cons _ amount _ _ second rest =>
        obtain ⟨direction, rfl, pots⟩ := filled_word (by decide) rest
        rw [fits_amount] at second
        obtain ⟨⟨whole, cents⟩, matched⟩ := Option.isSome_iff_exists.mp second
        have number := (amountDigits_iff data (ascii amount (by simp))).mp matched
        exact ⟨_, .emergencyTransfer ((fits_word (by decide)).mp first) number pots, rfl⟩

end Forms

theorem split_indented (t : Text) : split (text "  " ++ t) = split t := by
  have blank : Blank (text "  ") := by
    have all : ((text "  ").all isSpace) = true := by decide
    exact List.all_eq_true.mp all
  exact splitFrom_blank blank t

theorem mem_listed {line : Text} {a : Action} :
    (line, a) ∈ (allowedVerbs.map fun verb => text "  " ++ text verb).zip listedActions ↔
      ∃ form, (form, a) ∈ allowedVerbs.zip listedActions ∧ line = text "  " ++ text form := by
  rw [List.zip_map_left, List.mem_map]
  constructor
  · rintro ⟨⟨form, b⟩, listed, same⟩
    cases same
    exact ⟨form, listed, rfl⟩
  · rintro ⟨form, listed, rfl⟩
    exact ⟨(form, a), listed, rfl⟩

/-- The reply to a message that is no command, read line by line: the second line gives
    the reason, and the lines behind the fourth are the parser's grammar. A subject is a
    command with some action exactly when it fills in one of these lines, that of the
    action. -/
theorem reply_lists_grammar (sha256 : Sha256) {data : StrData} (keeps : KeepsLines data)
    {subject body : Text} {f : FormLetter}
    (rejected : parse sha256 data subject body = .ok (.formLetter f)) :
    (linesOf (formLetterBody f))[1]? = some (text "Reason: " ++ f.reason) ∧
    ∀ subject' body' a, Ascii subject' → Characters body' →
      ((∃ m, parse sha256 data subject' body' = .ok (.operatorMessage m) ∧ m.action = a) ↔
        ∃ line, (line, a) ∈ ((linesOf (formLetterBody f)).drop 4).zip listedActions ∧
          FillsIn data line subject') := by
  obtain ⟨rawSha, _, answered⟩ := parse_answer sha256 data rejected
  have solid : ∀ part ∈ split subject, Solid part := (split_iff_spaced.mp rfl).solid
  obtain ⟨one, verbs⟩ := answer_oneLine keeps solid answered.symm
  rw [lines_formLetterBody one verbs]
  refine ⟨rfl, ?_⟩
  intro subject' body' a ascii chars
  have tokens : ∀ t ∈ split subject', Ascii t := fun part mem c inside =>
    ascii c ((split_iff_spaced.mp rfl : Spaced (split subject') subject').subset part mem inside)
  obtain ⟨rawSha', parsed⟩ := parse_eq sha256 data ascii chars (split_iff_spaced.mp rfl)
  have lines : (([text "Sorry — your message didn't match any of the allowed commands.",
      text "Reason: " ++ f.reason, [], text "Allowed commands:"] ++
      allowedVerbs.map fun verb => text "  " ++ text verb).drop 4) =
      allowedVerbs.map fun verb => text "  " ++ text verb := rfl
  rw [lines]
  simp only [mem_listed, FillsIn]
  constructor
  · rintro ⟨m, accepted, rfl⟩
    have answer := Except.ok.inj (parsed.symm.trans accepted)
    obtain ⟨c, denotes, fields⟩ := denotes_of_answer tokens answer
    obtain ⟨form, listed, fits⟩ : ∃ form, (form, c.fields.1) ∈ allowedVerbs.zip listedActions ∧
        List.Forall₂ (Fits data) (split (text form)) (split subject') :=
      form_of_denotes tokens denotes
    have action : c.fields.1 = m.action := (congrArg Prod.fst fields).symm
    rw [action] at listed
    refine ⟨_, ⟨form, listed, rfl⟩, ?_⟩
    rwa [split_indented]
  · rintro ⟨_, ⟨form, listed, rfl⟩, fits⟩
    rw [split_indented] at fits
    obtain ⟨c, denotes, action⟩ := denotes_of_form tokens listed fits
    obtain ⟨m, message, fields⟩ := answer_of_denotes rawSha' tokens denotes
    have same : m.action = c.fields.1 := congrArg Prod.fst fields
    exact ⟨m, parsed.trans (congrArg _ message), same.trans action⟩

theorem ascii_keepsLines : KeepsLines asciiStrData := by
  intro t solid there
  obtain ⟨c, mem, upper⟩ := List.mem_map.mp there
  have value := upperAscii_val c
  have newline : (ofChar '\n').val = 0x0A := rfl
  rw [upper, newline] at value
  have same : c = ofChar '\n' := by
    apply Fin.ext
    rw [newline]
    split_ifs at value <;> omega
  have space := solid c mem
  rw [same] at space
  cases space

theorem eighth_line_pauses :
    ∃ m, parse killSha256 asciiStrData (text "  PAUSE") [] = .ok (.operatorMessage m) ∧
      m.action = .pause := by
  have rejected : parse killSha256 asciiStrData (text "HELP") [] = .ok (.formLetter
      ⟨text "unknown_verb:HELP", allowedVerbs, killSha256.hexdigest []⟩) := by decide +kernel
  have ascii : Ascii (text "  PAUSE") := by
    have all : ((text "  PAUSE").all fun c => c.val < 0x80) = true := by decide
    intro c mem
    simpa using List.all_eq_true.mp all c mem
  have understood := (reply_lists_grammar killSha256 ascii_keepsLines rejected).2
    (text "  PAUSE") [] .pause ascii (characters_text "")
  refine understood.mpr ⟨text "  PAUSE", by decide +kernel, ?_⟩
  have word : Fits asciiStrData (text "PAUSE") (text "PAUSE") := (fits_word (by decide)).mpr rfl
  have tokens : split (text "  PAUSE") = [text "PAUSE"] := by decide
  rw [FillsIn, tokens]
  exact .cons word .nil

end PushWebhook
