import AgentEcosystem.Operator.CommandGrammar
import AgentEcosystem.Text.Utf8RoundTrip

/-!
What the logged hash of a message says about its command. Subject and body are
joined by a line break and stripped before they are hashed, while the command is
made of the words of the subject: where the subject ends is not hashed.
-/
namespace OperatorParser
open AgentSchemas JsonText UnicodeText

structure Message where
  subject : Text
  body : Text

def Message.raw (p : Message) : Text := strip (p.subject ++ text "\n" ++ p.body)

def Message.words (p : Message) : List Text := split p.subject

def ParseResult.rawSha256 : ParseResult → String
  | .operatorMessage m => m.rawSha256
  | .formLetter f => f.rawSha256

def ParseResult.decision (r : ParseResult) : Option (Action × Option Uuid × Option DecimalArithmetic.Decimal) :=
  r.outcome.getLeft?

def HashDetermines (sha256 : Sha256) (data : StrData) (p q : Message) : Prop :=
  ∀ r r', parse sha256 data p.subject p.body = .ok r → parse sha256 data q.subject q.body = .ok r' →
    r.rawSha256 = r'.rawSha256 → r.decision = r'.decision

/-- The words of a command: its verb, in either case, and the arguments of the verb. -/
inductive IsCommand (data : StrData) : List Text → Prop where
  | alone {verb : Text} (word : data.upper verb ∈ [text "CONTINUE", text "PAUSE"]) :
      IsCommand data [verb]
  | withId {verb arg : Text}
      (word : data.upper verb ∈ [text "APPROVE", text "REJECT", text "KILL", text "RESUME"])
      (id : isUuid arg = true) : IsCommand data [verb, arg]
  | killAll {verb arg : Text} (word : data.upper verb = text "KILL")
      (all : data.upper arg = text "ALL") : IsCommand data [verb, arg]
  | transfer {verb amount direction : Text} (word : data.upper verb = text "EMERGENCY_TRANSFER")
      (direct : data.lower direction = text "reserve->operating")
      (number : (amountDigits data amount).isSome = true) :
      IsCommand data [verb, amount, direction]

def arity (verb : Text) : ℕ :=
  if verb ∈ [text "CONTINUE", text "PAUSE"] then 0
  else if verb = text "EMERGENCY_TRANSFER" then 2
  else 1

section Words
variable {data : StrData} {rawSha rawSha' : String} {body body' : Text}

theorem isCommand_arity {verb : Text} {args : List Text} (accepted : IsCommand data (verb :: args)) :
    args.length = arity (data.upper verb) := by
  cases accepted with
  | alone word => simp [arity, word]
  | withId word id =>
    simp only [List.mem_cons, List.not_mem_nil, or_false] at word
    rcases word with word | word | word | word
    all_goals simp [arity, word, text_eq_iff]
  | killAll word all => simp [arity, word, text_eq_iff]
  | transfer word direct number => simp [arity, word, text_eq_iff]

theorem withUuid_logs {requirement : String} {message : Uuid → OperatorMessage} {args : List Text}
    (logged : ∀ u, (message u).rawSha256 = rawSha) :
    (withUuid rawSha requirement message args).rawSha256 = rawSha := by
  unfold withUuid
  split
  · split
    · exact logged _
    · rfl
  · rfl

theorem answer_logs (parts : List Text) : (answer data rawSha body parts).rawSha256 = rawSha := by
  cases parts with
  | nil => rfl
  | cons verb args =>
    rw [answer, command]
    split_ifs
    · exact withUuid_logs fun _ => rfl
    · exact withUuid_logs fun _ => rfl
    · unfold alone
      split <;> rfl
    · unfold alone
      split <;> rfl
    · unfold kill
      split
      · split_ifs <;> rfl
      · rfl
    · exact withUuid_logs fun _ => rfl
    · unfold emergencyTransfer
      split
      · split_ifs
        · rfl
        · split <;> rfl
      · rfl
    · rfl

theorem withUuid_outcome {requirement : String} {message message' : Uuid → OperatorMessage}
    {args : List Text} (fields : ∀ u, (message u).fields = (message' u).fields) :
    (withUuid rawSha requirement message args).outcome =
      (withUuid rawSha' requirement message' args).outcome := by
  unfold withUuid
  split
  · split
    · simp only [ParseResult.outcome, fields]
    · rfl
  · rfl

theorem answer_outcome (parts : List Text) :
    (answer data rawSha body parts).outcome = (answer data rawSha' body' parts).outcome := by
  cases parts with
  | nil => rfl
  | cons verb args =>
    rw [answer, answer, command, command]
    refine outcome_ite (withUuid_outcome fun _ => rfl) ?_
    refine outcome_ite (withUuid_outcome fun _ => rfl) ?_
    refine outcome_ite (by unfold alone; split <;> rfl) ?_
    refine outcome_ite (by unfold alone; split <;> rfl) ?_
    refine outcome_ite (by unfold kill; split <;> [split_ifs; skip] <;> rfl) ?_
    refine outcome_ite (withUuid_outcome fun _ => rfl) ?_
    refine outcome_ite ?_ rfl
    unfold emergencyTransfer
    split
    · split_ifs
      · rfl
      · split <;> rfl
    · rfl

@[simp]
theorem decision_message (m : OperatorMessage) :
    (ParseResult.operatorMessage m).decision = some m.fields := rfl

@[simp]
theorem decision_reject (reason : Text) : (rejectWith rawSha reason).decision = none := rfl

theorem withUuid_decision {requirement : String} {message : Uuid → OperatorMessage}
    {args : List Text} : (withUuid rawSha requirement message args).decision.isSome = true ↔
      ∃ arg, args = [arg] ∧ isUuid arg = true := by
  rcases args with _ | ⟨arg, _ | ⟨second, rest⟩⟩
  · simp [withUuid]
  · by_cases matched : isUuid arg = true
    · simp [withUuid, matched]
    · simp [withUuid, matched]
  · simp [withUuid]

theorem alone_decision {requirement : String} {message : OperatorMessage} {args : List Text} :
    (alone rawSha requirement message args).decision.isSome = true ↔ args = [] := by
  rcases args with _ | ⟨arg, rest⟩
  · simp [alone]
  · simp [alone]

theorem kill_decision {args : List Text} : (kill rawSha data args).decision.isSome = true ↔
    ∃ arg, args = [arg] ∧ (data.upper arg = text "ALL" ∨ isUuid arg = true) := by
  rcases args with _ | ⟨arg, _ | ⟨second, rest⟩⟩
  · simp [kill]
  · by_cases all : data.upper arg = text "ALL"
    · simp [kill, all]
    · by_cases matched : isUuid arg = true
      · simp [kill, all, matched]
      · simp [kill, all, matched]
  · simp [kill]

theorem emergencyTransfer_decision {args : List Text} :
    (emergencyTransfer rawSha data body args).decision.isSome = true ↔
      ∃ amount direction, args = [amount, direction] ∧
        data.lower direction = text "reserve->operating" ∧
        (amountDigits data amount).isSome = true := by
  rcases args with _ | ⟨amount, _ | ⟨direction, _ | ⟨third, rest⟩⟩⟩
  · simp [emergencyTransfer]
  · simp [emergencyTransfer]
  · by_cases direct : data.lower direction = text "reserve->operating"
    · rcases matched : amountDigits data amount with _ | ⟨whole, cents⟩
      · simp [emergencyTransfer, direct, matched]
      · simp [emergencyTransfer, direct, matched]
    · simp [emergencyTransfer, direct]
  · simp [emergencyTransfer]

/-- The answer is a command exactly if the words are one. -/
theorem answer_command_iff (parts : List Text) :
    (answer data rawSha body parts).decision.isSome = true ↔ IsCommand data parts := by
  constructor
  · intro decided
    cases parts with
    | nil => cases decided
    | cons verb args =>
      rw [answer, command] at decided
      split_ifs at decided with approve reject go pause killed resume transfer
      · obtain ⟨arg, rfl, id⟩ := withUuid_decision.mp decided
        exact .withId (by simp [approve]) id
      · obtain ⟨arg, rfl, id⟩ := withUuid_decision.mp decided
        exact .withId (by simp [reject]) id
      · obtain rfl := alone_decision.mp decided
        exact .alone (by simp [go])
      · obtain rfl := alone_decision.mp decided
        exact .alone (by simp [pause])
      · obtain ⟨arg, rfl, all | id⟩ := kill_decision.mp decided
        · exact .killAll killed all
        · exact .withId (by simp [killed]) id
      · obtain ⟨arg, rfl, id⟩ := withUuid_decision.mp decided
        exact .withId (by simp [resume]) id
      · obtain ⟨amount, direction, rfl, direct, number⟩ := emergencyTransfer_decision.mp decided
        exact .transfer transfer direct number
      · cases decided
  · intro accepted
    cases accepted with
    | alone word =>
      simp only [List.mem_cons, List.not_mem_nil, or_false] at word
      rcases word with word | word
      all_goals simp [answer, command, word, text_eq_iff, alone_decision]
    | withId word id =>
      simp only [List.mem_cons, List.not_mem_nil, or_false] at word
      rcases word with word | word | word | word
      all_goals simp [answer, command, word, text_eq_iff, withUuid_decision, kill_decision, id]
    | killAll word all => simp [answer, command, word, text_eq_iff, kill_decision, all]
    | transfer word direct number =>
      simp [answer, command, word, text_eq_iff, emergencyTransfer_decision, direct, number]

end Words

section Pairs
variable {data : StrData} {p q : Message}

/-- Two messages that are hashed alike, one of them a command, whose subjects end at
    different words of the text that they share. -/
structure Ambiguous (data : StrData) (p q : Message) : Prop where
  raw : p.raw = q.raw
  hashable : Characters p.raw
  length : p.words.length ≠ q.words.length
  isCommand : IsCommand data p.words ∨ IsCommand data q.words

theorem raw_words (p : Message) : split p.raw = p.words ++ split p.body := by
  have space : isSpace (ofChar '\n') = true := by decide
  have joined : p.subject ++ text "\n" ++ p.body = p.subject ++ ofChar '\n' :: p.body := by
    rw [List.append_assoc]
    rfl
  rw [Message.raw, split_strip, joined, split_append_blank space]
  rfl

/- Of two beginnings of one text at most one is a command, unless they are equal. -/
theorem one_command {xs ys us vs : List Text} (same : xs ++ us = ys ++ vs)
    (first : IsCommand data xs) (second : IsCommand data ys) : xs.length = ys.length := by
  cases xs with
  | nil => cases first
  | cons verb args =>
    cases ys with
    | nil => cases second
    | cons verb' args' =>
      obtain ⟨rfl, _⟩ := List.cons.inj same
      have count := isCommand_arity first
      rw [← isCommand_arity second] at count
      simp [count]

theorem sha_ok_iff {sha256 : Sha256} {t : Text} {digest : String} :
    sha sha256 t = .ok digest ↔ ∃ bytes, encode t = some bytes ∧ sha256.hexdigest bytes = digest := by
  unfold sha
  rcases encode t with _ | bytes
  · simp
  · simp

theorem parse_hashable (data : StrData) (sha256 : Sha256) (chars : Characters p.raw) :
    parse sha256 data p.subject p.body =
      .ok (answer data (sha256.hexdigest (p.raw.flatMap encodeChar)) p.body p.words) :=
  parse_of_sha sha256 data (sha_ok_iff.mpr ⟨_, encode_of_characters chars, rfl⟩)

theorem decision_words {rawSha rawSha' : String} (same : p.words = q.words) :
    (answer data rawSha p.body p.words).decision = (answer data rawSha' q.body q.words).decision := by
  rw [ParseResult.decision, ParseResult.decision, same, answer_outcome]

theorem decision_none {rawSha : String} {body : Text} {words : List Text}
    (other : ¬ IsCommand data words) : (answer data rawSha body words).decision = none := by
  rw [← Option.not_isSome_iff_eq_none, answer_command_iff]
  exact other

/-- Messages with equal hashes are the same command or no command, exactly unless
    their subjects end at different words and one of the subjects is a command. -/
theorem hash_determines_iff (sha256 : Sha256)
    (noCollision : ∀ bytes bytes', encode p.raw = some bytes → encode q.raw = some bytes' →
      sha256.hexdigest bytes = sha256.hexdigest bytes' → bytes = bytes') :
    HashDetermines sha256 data p q ↔ ¬ Ambiguous data p q := by
  constructor
  · intro determines ambiguous
    have parsed := parse_hashable data sha256 ambiguous.hashable
    have parsed' := parse_hashable data sha256 (ambiguous.raw ▸ ambiguous.hashable)
    have same := determines _ _ parsed parsed' (by rw [answer_logs, answer_logs, ambiguous.raw])
    have together : IsCommand data p.words ↔ IsCommand data q.words := by
      rw [← answer_command_iff, ← answer_command_iff]
      exact Bool.eq_iff_iff.mp (congrArg Option.isSome same)
    have words : p.words ++ split p.body = q.words ++ split q.body := by
      rw [← raw_words, ← raw_words, ambiguous.raw]
    rcases ambiguous.isCommand with first | second
    · exact ambiguous.length (one_command words first (together.mp first))
    · exact ambiguous.length (one_command words (together.mpr second) second)
  · intro plain r r' parsed parsed' logged
    obtain ⟨rawSha, hashed, rfl⟩ := parse_answer sha256 data parsed
    obtain ⟨rawSha', hashed', rfl⟩ := parse_answer sha256 data parsed'
    rw [answer_logs, answer_logs] at logged
    subst logged
    obtain ⟨bytes, encoded, digest⟩ := sha_ok_iff.mp hashed
    obtain ⟨bytes', encoded', digest'⟩ := sha_ok_iff.mp hashed'
    obtain rfl := noCollision bytes bytes' encoded encoded' (digest.trans digest'.symm)
    have raw : p.raw = q.raw := encode_injective encoded encoded'
    have words : p.words ++ split p.body = q.words ++ split q.body := by
      rw [← raw_words, ← raw_words, raw]
    by_cases length : p.words.length = q.words.length
    · exact decision_words (List.append_inj_left words length)
    · -- the subjects end at different words, so neither of them is a command
      have neither : ¬ (IsCommand data p.words ∨ IsCommand data q.words) := by
        intro isCommand
        exact plain ⟨raw, (characters_of_encode encoded).1, length, isCommand⟩
      rw [not_or] at neither
      exact (decision_none neither.1).trans (decision_none neither.2).symm

structure Line (t : Text) : Prop where
  solid : ∃ c ∈ t, isSpace c = false
  unbroken : ofChar '\n' ∉ t

/- The words of such a subject are those on the first line of what is hashed. -/
theorem words_of_line (line : Line p.subject) :
    p.words = split (p.raw.takeWhile (· ≠ ofChar '\n')) := by
  have inside : ∀ t : Text, t ⊆ p.subject → t.all (· ≠ ofChar '\n') = true := by
    intro t part
    rw [List.all_eq_true]
    intro c mem
    apply decide_eq_true
    rintro rfl
    exact line.unbroken (part mem)
  have joined : p.subject ++ text "\n" ++ p.body = p.subject ++ ofChar '\n' :: p.body := by
    rw [List.append_assoc]
    rfl
  rw [Message.raw, joined, strip_append line.solid]
  split
  · have whole := inside (strip p.subject) (strip_subset _)
    rw [List.takeWhile_eq_self_iff.mpr (List.all_eq_true.mp whole), split_strip]
    rfl
  · next more =>
    -- what is left behind the subject still begins with the line break
    have begins : ∃ rest, (ofChar '\n' :: p.body).rdropWhile isSpace = ofChar '\n' :: rest := by
      obtain ⟨blanks, parts⟩ := List.rdropWhile_prefix isSpace (ofChar '\n' :: p.body)
      rcases kept : (ofChar '\n' :: p.body).rdropWhile isSpace with _ | ⟨c, rest⟩
      · exact absurd kept more
      · rw [kept] at parts
        obtain ⟨rfl, _⟩ := List.cons.inj parts
        exact ⟨rest, rfl⟩
    obtain ⟨rest, begins⟩ := begins
    have whole := inside (p.subject.dropWhile isSpace) (List.dropWhile_suffix _).subset
    rw [begins, List.takeWhile_append_of_pos (List.all_eq_true.mp whole)]
    simp [split_dropWhile, Message.words]

/-- Messages with such subjects, as mail has them, are never ambiguous. -/
theorem lines_unambiguous (first : Line p.subject) (second : Line q.subject) :
    ¬ Ambiguous data p q := by
  intro ambiguous
  apply ambiguous.length
  rw [words_of_line first, words_of_line second, ambiguous.raw]

end Pairs

def commandInSubject : Message := ⟨text "KILL ALL", []⟩
def commandInBody : Message := ⟨[], text "KILL ALL"⟩

def killAllDigest : String := "ac8c77faa6360df937ea9df216f2b42433a11810bc5d82c53ad4e66b03801e28"

theorem killAllDigest_hex :
    killAllDigest.length = 64 ∧ ∀ c ∈ killAllDigest.toList, c ∈ "0123456789abcdef".toList := by
  apply hex_of_all
  decide +kernel

def killAllSha256 : Sha256 where
  hexdigest _ := killAllDigest
  hex _ := killAllDigest_hex

theorem hash_determines_blanks : HashDetermines killAllSha256 asciiStrData commandInSubject
    ⟨text " KILL ALL ", text " "⟩ := by
  have line : ∀ t, t = text "KILL ALL" ∨ t = text " KILL ALL " → Line t := by
    rintro t (rfl | rfl)
    · exact ⟨⟨ofChar 'K', by decide, by decide⟩, by decide⟩
    · exact ⟨⟨ofChar 'K', by decide, by decide⟩, by decide⟩
  apply (hash_determines_iff killAllSha256 _).mpr (lines_unambiguous (line _ (.inl rfl)) (line _ (.inr rfl)))
  have same : Message.raw ⟨text " KILL ALL ", text " "⟩ = commandInSubject.raw := by decide
  intro bytes bytes' encoded encoded' _
  rw [same, encoded] at encoded'
  exact Option.some.inj encoded'

/-- The same text in the body is hashed alike and commands nothing. -/
theorem body_hashed_alike :
    ¬ HashDetermines killAllSha256 asciiStrData commandInSubject commandInBody := by
  intro determines
  have raw : commandInSubject.raw = text "KILL ALL" := by decide
  have raw' : commandInBody.raw = text "KILL ALL" := by decide
  have parsed := parse_hashable (p := commandInSubject) asciiStrData killAllSha256
    (raw ▸ characters_text _)
  have parsed' := parse_hashable (p := commandInBody) asciiStrData killAllSha256
    (raw' ▸ characters_text _)
  have same := determines _ _ parsed parsed' rfl
  have words : commandInSubject.words = [text "KILL", text "ALL"] := by decide
  have words' : commandInBody.words = [] := by decide
  rw [words, words'] at same
  cases same

end OperatorParser
