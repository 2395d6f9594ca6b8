import AgentEcosystem.Operator.UuidText

/-!
The grammar of the operator's commands, and that the parser accepts it and
nothing else.
-/
namespace OperatorParser
open AgentSchemas DecimalArithmetic JsonText UnicodeText

def digitChar (d : Fin 10) : CodePoint := Fin.ofNat 0x110000 (0x30 + d.val)

/-- Digits, and behind a point one or two more. -/
inductive AmountText : Text → List (Fin 10) → List (Fin 10) → Prop where
  | whole {ds : List (Fin 10)} (nonempty : ds ≠ []) : AmountText (ds.map digitChar) ds []
  | cents {ds cs : List (Fin 10)} (nonempty : ds ≠ []) (short : cs.length = 1 ∨ cs.length = 2) :
      AmountText (ds.map digitChar ++ ofChar '.' :: cs.map digitChar) ds cs

section Amounts
variable (data : StrData)

theorem digit_digitChar (d : Fin 10) : data.digit (digitChar d) = some d := by
  have all : ∀ d : Fin 10, (digitChar d).val < 0x80 ∧ asciiData.digit (digitChar d) = some d := by
    decide
  rw [data.digit_ascii _ (all d).1, (all d).2]

theorem eq_digitChar {c : CodePoint} {d : Fin 10} (ascii : c.val < 0x80)
    (digit : data.digit c = some d) : digitChar d = c := by
  rw [data.digit_ascii c ascii] at digit
  simp only [asciiData, isAsciiDigit, Option.ite_none_right_eq_some, Bool.and_eq_true,
    decide_eq_true_eq, Option.some.injEq] at digit
  obtain ⟨range, rfl⟩ := digit
  apply Fin.ext
  have value : (Fin.ofNat 10 (c.val - 0x30)).val = c.val - 0x30 := Nat.mod_eq_of_lt (by omega)
  have shown : (digitChar (Fin.ofNat 10 (c.val - 0x30))).val =
      (0x30 + (Fin.ofNat 10 (c.val - 0x30)).val) % 0x110000 := rfl
  omega

theorem filterMap_digits (ds : List (Fin 10)) : (ds.map digitChar).filterMap data.digit = ds := by
  simp [List.filterMap_map, digit_digitChar]

theorem digits_filterMap {t : Text} (ascii : Ascii t) (digits : t.all (isDigit data) = true) :
    (t.filterMap data.digit).map digitChar = t := by
  induction t with
  | nil => rfl
  | cons c t ih =>
    simp only [List.all_cons, Bool.and_eq_true] at digits
    obtain ⟨d, digit⟩ := Option.isSome_iff_exists.mp digits.1
    have later := ih (fun e mem => ascii e (List.mem_cons_of_mem c mem)) digits.2
    have char := eq_digitChar data (ascii c List.mem_cons_self) digit
    simp [digit, later, char]

theorem isDigit_digits (ds : List (Fin 10)) : ∀ c ∈ ds.map digitChar, isDigit data c = true := by
  intro c mem
  obtain ⟨d, _, rfl⟩ := List.mem_map.mp mem
  simp [isDigit, digit_digitChar]

theorem isDigit_point : isDigit data (ofChar '.') = false := by
  have point : (ofChar '.').val < 0x80 ∧ asciiData.digit (ofChar '.') = none := by decide
  rw [isDigit, data.digit_ascii _ point.1, point.2]
  rfl

structure AmountParts (t before behind : Text) : Prop where
  nonempty : before ≠ []
  digits : ∀ c ∈ before, isDigit data c = true
  digits' : ∀ c ∈ behind, isDigit data c = true
  shown : t = before ∧ behind = [] ∨
    t = before ++ ofChar '.' :: behind ∧ (behind.length = 1 ∨ behind.length = 2)

theorem amount_parts {t : Text} {whole cents : List (Fin 10)}
    (matched : amountDigits data t = some (whole, cents)) :
    ∃ before behind, AmountParts data t before behind ∧
      whole = before.filterMap data.digit ∧ cents = behind.filterMap data.digit := by
  have digits : ∀ c ∈ t.takeWhile (isDigit data), isDigit data c = true :=
    fun c mem => List.mem_takeWhile_imp mem
  have split := List.takeWhile_append_dropWhile (p := isDigit data) (l := t)
  rw [amountDigits, List.span_eq_takeWhile_dropWhile] at matched
  dsimp only at matched
  split at matched
  · cases matched
  · next found =>
    split at matched
    · next rest =>
      cases matched
      rw [rest, List.append_nil] at split
      exact ⟨_, [], ⟨found, digits, by simp, .inl ⟨split.symm, rfl⟩⟩, rfl, rfl⟩
    · next point behind rest =>
      split at matched
      · next condition =>
        cases matched
        obtain ⟨rfl, short, all⟩ := condition
        rw [rest] at split
        exact ⟨_, behind, ⟨found, digits, List.all_eq_true.mp all, .inr ⟨split.symm, short⟩⟩,
          rfl, rfl⟩
      · cases matched

theorem amountDigits_iff {t : Text} (ascii : Ascii t) {ds cs : List (Fin 10)} :
    amountDigits data t = some (ds, cs) ↔ AmountText t ds cs := by
  constructor
  · intro matched
    obtain ⟨before, behind, parts, rfl, rfl⟩ := amount_parts data matched
    have inside : before ⊆ t ∧ behind ⊆ t := by
      rcases parts.shown with ⟨rfl, rfl⟩ | ⟨rfl, _⟩
      · simp
      · exact ⟨List.subset_append_left _ _, fun c mem => by simp [mem]⟩
    have shown := digits_filterMap data (fun c mem => ascii c (inside.1 mem))
      (List.all_eq_true.mpr parts.digits)
    have shown' := digits_filterMap data (fun c mem => ascii c (inside.2 mem))
      (List.all_eq_true.mpr parts.digits')
    have nonempty : before.filterMap data.digit ≠ [] := by
      intro none
      rw [none] at shown
      exact parts.nonempty shown.symm
    rcases parts.shown with ⟨same, rfl⟩ | ⟨same, short⟩
    · have amount := AmountText.whole nonempty
      rw [shown] at amount
      rw [same]
      exact amount
    · have count : (behind.filterMap data.digit).length = behind.length := by
        simpa using congrArg List.length shown'
      rw [← count] at short
      have amount := AmountText.cents nonempty short
      rw [shown, shown'] at amount
      rw [same]
      exact amount
  · intro amount
    have digits := isDigit_digits data ds
    cases amount with
    | whole nonempty =>
      have none : ∀ c ∈ ([] : Text).head?, isDigit data c = false := by simp
      have parts := span_before digits none
      rw [List.append_nil] at parts
      simp only [amountDigits, parts, List.map_eq_nil_iff, nonempty, if_false, filterMap_digits]
    | cents nonempty short =>
      have point : ∀ c ∈ (ofChar '.' :: cs.map digitChar).head?, isDigit data c = false := by
        simpa using isDigit_point data
      have parts := span_before digits point
      have cents : (cs.map digitChar).all (isDigit data) = true :=
        List.all_eq_true.mpr (isDigit_digits data cs)
      simp only [amountDigits, parts, List.map_eq_nil_iff, nonempty, if_false, List.length_map,
        short, cents, and_self, if_true, filterMap_digits]

end Amounts

def Spells (word : String) (t : Text) : Prop := SameLetters (text word) t

inductive Command where
  | approve (proposal : Uuid) | reject (proposal : Uuid) | resume (event : Uuid)
  | killChild (child : Uuid) | killAll | «continue» | pause
  | emergencyTransfer (amount : Decimal)
  deriving DecidableEq, Repr

def Command.fields : Command → Action × Option Uuid × Option Decimal
  | .approve proposal => (.approve, some proposal, none)
  | .reject proposal => (.reject, some proposal, none)
  | .resume event => (.resume, some event, none)
  | .killChild child => (.killChild, some child, none)
  | .killAll => (.killAll, none, none)
  | .«continue» => (.«continue», none, none)
  | .pause => (.pause, none, none)
  | .emergencyTransfer amount => (.emergencyTransfer, none, some amount)

/-- The tokens that stand for a command. -/
inductive Denotes : List Text → Command → Prop where
  | approve {verb arg : Text} {u : Uuid} (word : Spells "APPROVE" verb) (id : Spells u.str arg) :
      Denotes [verb, arg] (.approve u)
  | reject {verb arg : Text} {u : Uuid} (word : Spells "REJECT" verb) (id : Spells u.str arg) :
      Denotes [verb, arg] (.reject u)
  | resume {verb arg : Text} {u : Uuid} (word : Spells "RESUME" verb) (id : Spells u.str arg) :
      Denotes [verb, arg] (.resume u)
  | killChild {verb arg : Text} {u : Uuid} (word : Spells "KILL" verb) (id : Spells u.str arg) :
      Denotes [verb, arg] (.killChild u)
  | killAll {verb arg : Text} (word : Spells "KILL" verb) (all : Spells "ALL" arg) :
      Denotes [verb, arg] .killAll
  | «continue» {verb : Text} (word : Spells "CONTINUE" verb) : Denotes [verb] .«continue»
  | pause {verb : Text} (word : Spells "PAUSE" verb) : Denotes [verb] .pause
  | emergencyTransfer {verb amount direction : Text} {whole cents : List (Fin 10)}
      (word : Spells "EMERGENCY_TRANSFER" verb) (number : AmountText amount whole cents)
      (pots : Spells "reserve->operating" direction) :
      Denotes [verb, amount, direction] (.emergencyTransfer (decimalOf whole cents))

def OperatorMessage.fields (m : OperatorMessage) : Action × Option Uuid × Option Decimal :=
  (m.action, m.subjectId, m.amountUsd)

def ParseResult.outcome : ParseResult →
    (Action × Option Uuid × Option Decimal) ⊕ (Text × List String)
  | .operatorMessage m => .inl m.fields
  | .formLetter f => .inr (f.reason, f.allowedVerbs)

theorem fields_injective {c d : Command} (same : c.fields = d.fields) : c = d := by
  cases c <;> cases d <;> simp_all [Command.fields]

section Accepts
variable (data : StrData)

theorem upper_iff {t : Text} (ascii : Ascii t) {word : String}
    (capital : (text word).map upperAscii = text word) : data.upper t = text word ↔ Spells word t := by
  rw [data.upper_ascii t ascii, Spells, SameLetters, capital, eq_comm]

theorem lower_iff {t : Text} (ascii : Ascii t) {word : String}
    (small : (text word).map lowerAscii = text word) : data.lower t = text word ↔ Spells word t := by
  rw [data.lower_ascii t ascii, Spells, sameLetters_iff_lower, small, eq_comm]

theorem all_not_uuid {arg : Text} (all : Spells "ALL" arg) : isUuid arg = false := by
  rw [← (uuid_same all).1]
  decide

variable {data} {rawSha : String} {body : Text}

theorem withUuid_accepts {requirement : String} {message : Uuid → OperatorMessage} {arg : Text}
    {u : Uuid} (id : Spells u.str arg) :
    withUuid rawSha requirement message [arg] = .operatorMessage (message u) := by
  obtain ⟨matched, value⟩ := isUuid_iff.mpr id
  simp only [withUuid, matched, value, if_true]

theorem command_of_denotes {verb : Text} {args : List Text} {c : Command}
    (ascii : ∀ t ∈ verb :: args, Ascii t) (denotes : Denotes (verb :: args) c) :
    ∃ m, command rawSha data body (data.upper verb) args = .operatorMessage m ∧
      m.fields = c.fields := by
  have upper : ∀ {word : String}, (text word).map upperAscii = text word → Spells word verb →
      data.upper verb = text word := fun capital word =>
    (upper_iff data (ascii verb List.mem_cons_self) capital).mpr word
  cases denotes with
  | approve word id =>
    simp [command, upper (by decide) word, withUuid_accepts id, OperatorMessage.fields,
      Command.fields]
  | reject word id =>
    simp [command, upper (by decide) word, text_eq_iff, withUuid_accepts id,
      OperatorMessage.fields, Command.fields]
  | resume word id =>
    simp [command, upper (by decide) word, text_eq_iff, withUuid_accepts id,
      OperatorMessage.fields, Command.fields]
  | @killChild _ arg u word id =>
    obtain ⟨matched, value⟩ := isUuid_iff.mpr id
    have asciiArg : Ascii arg := ascii arg (by simp)
    have notAll : data.upper arg ≠ text "ALL" := by
      intro all
      rw [upper_iff data asciiArg (by decide)] at all
      rw [all_not_uuid all] at matched
      cases matched
    simp [command, upper (by decide) word, text_eq_iff, kill, notAll, matched, value,
      OperatorMessage.fields, Command.fields]
  | @killAll _ arg word all =>
    have asciiArg : Ascii arg := ascii arg (by simp)
    have spelled : data.upper arg = text "ALL" := (upper_iff data asciiArg (by decide)).mpr all
    simp [command, upper (by decide) word, text_eq_iff, kill, spelled, OperatorMessage.fields,
      Command.fields]
  | «continue» word =>
    simp [command, upper (by decide) word, text_eq_iff, alone, OperatorMessage.fields,
      Command.fields]
  | pause word =>
    simp [command, upper (by decide) word, text_eq_iff, alone, OperatorMessage.fields,
      Command.fields]
  | @emergencyTransfer _ amount direction whole cents word number pots =>
    have asciiAmount : Ascii amount := ascii amount (by simp)
    have asciiDirection : Ascii direction := ascii direction (by simp)
    have matched := (amountDigits_iff data asciiAmount).mpr number
    have direct := (lower_iff data asciiDirection (by decide)).mpr pots
    simp [command, upper (by decide) word, text_eq_iff, emergencyTransfer, direct, matched,
      OperatorMessage.fields, Command.fields]

theorem withUuid_message {requirement : String} {message : Uuid → OperatorMessage}
    {args : List Text} {m : OperatorMessage}
    (accepted : withUuid rawSha requirement message args = .operatorMessage m) :
    ∃ arg, args = [arg] ∧ Spells (uuidOf arg).str arg := by
  unfold withUuid at accepted
  split at accepted
  · next arg =>
    split at accepted
    · next matched => exact ⟨arg, rfl, str_uuidOf matched⟩
    · cases accepted
  · cases accepted

theorem alone_message {requirement : String} {message m : OperatorMessage} {args : List Text}
    (accepted : alone rawSha requirement message args = .operatorMessage m) : args = [] := by
  unfold alone at accepted
  split at accepted
  · rfl
  · cases accepted

theorem denotes_of_command {verb : Text} {args : List Text} {m : OperatorMessage}
    (ascii : ∀ t ∈ verb :: args, Ascii t)
    (accepted : command rawSha data body (data.upper verb) args = .operatorMessage m) :
    ∃ c, Denotes (verb :: args) c := by
  have spelled : ∀ {word : String}, (text word).map upperAscii = text word →
      data.upper verb = text word → Spells word verb := fun capital upper =>
    (upper_iff data (ascii verb List.mem_cons_self) capital).mp upper
  unfold command at accepted
  split_ifs at accepted with approve reject go pause killed resume transfer
  · obtain ⟨arg, rfl, id⟩ := withUuid_message accepted
    exact ⟨_, .approve (spelled (by decide) approve) id⟩
  · obtain ⟨arg, rfl, id⟩ := withUuid_message accepted
    exact ⟨_, .reject (spelled (by decide) reject) id⟩
  · obtain rfl := alone_message accepted
    exact ⟨_, .«continue» (spelled (by decide) go)⟩
  · obtain rfl := alone_message accepted
    exact ⟨_, .pause (spelled (by decide) pause)⟩
  · unfold kill at accepted
    split at accepted
    · next arg =>
      have asciiArg : Ascii arg := ascii arg (by simp)
      split_ifs at accepted with all matched
      · have whole := (upper_iff data asciiArg (by decide)).mp all
        exact ⟨_, .killAll (spelled (by decide) killed) whole⟩
      · exact ⟨_, .killChild (spelled (by decide) killed) (str_uuidOf matched)⟩
      · cases accepted
    · cases accepted
  · obtain ⟨arg, rfl, id⟩ := withUuid_message accepted
    exact ⟨_, .resume (spelled (by decide) resume) id⟩
  · unfold emergencyTransfer at accepted
    split at accepted
    · next amount direction =>
      have asciiAmount : Ascii amount := ascii amount (by simp)
      have asciiDirection : Ascii direction := ascii direction (by simp)
      split_ifs at accepted with direct
      · cases accepted
      · split at accepted
        · cases accepted
        · next whole cents matched =>
          have number := (amountDigits_iff data asciiAmount).mp matched
          have pots := (lower_iff data asciiDirection (by decide)).mp (not_not.mp direct)
          exact ⟨_, .emergencyTransfer (spelled (by decide) transfer) number pots⟩
    · cases accepted
  · cases accepted

variable (data) in
theorem upper_same {s t : Text} (asciiS : Ascii s) (asciiT : Ascii t) (same : SameLetters s t) :
    data.upper s = data.upper t := by
  rw [data.upper_ascii s asciiS, data.upper_ascii t asciiT, same]

variable (data) in
theorem lower_same {s t : Text} (asciiS : Ascii s) (asciiT : Ascii t) (same : SameLetters s t) :
    data.lower s = data.lower t := by
  rw [data.lower_ascii s asciiS, data.lower_ascii t asciiT, sameLetters_iff_lower.mp same]

theorem AmountText.same {s t : Text} {whole cents : List (Fin 10)}
    (amount : AmountText s whole cents) (same : SameLetters s t) : AmountText t whole cents := by
  have digit : ∀ d : Fin 10, Caseless (digitChar d) := by decide
  have point : Caseless (ofChar '.') := by decide
  have caseless : ∀ c ∈ s, Caseless c := by
    intro c mem
    cases amount with
    | whole nonempty =>
      obtain ⟨d, _, rfl⟩ := List.mem_map.mp mem
      exact digit d
    | cents nonempty short =>
      simp only [List.mem_append, List.mem_map, List.mem_cons] at mem
      obtain ⟨d, _, rfl⟩ | rfl | ⟨d, _, rfl⟩ := mem
      · exact digit d
      · exact point
      · exact digit d
  rwa [same.eq_of_caseless caseless] at amount

variable (data) in
theorem amountDigits_same {s t : Text} (asciiS : Ascii s) (asciiT : Ascii t)
    (same : SameLetters s t) : amountDigits data s = amountDigits data t := by
  apply Option.ext
  intro digits
  obtain ⟨whole, cents⟩ := digits
  rw [amountDigits_iff data asciiS, amountDigits_iff data asciiT]
  constructor
  · intro amount
    exact amount.same same
  · intro amount
    exact amount.same same.symm

section Same
variable {rawSha' : String} {body' : Text} {args args' : List Text}

theorem withUuid_same {requirement : String} {message message' : Uuid → OperatorMessage}
    (fields : ∀ u, (message u).fields = (message' u).fields)
    (same : List.Forall₂ SameLetters args args') :
    (withUuid rawSha requirement message args).outcome =
      (withUuid rawSha' requirement message' args').outcome := by
  cases same with
  | nil => rfl
  | cons first rest =>
    cases rest with
    | nil =>
      obtain ⟨matched, value⟩ := uuid_same first
      simp only [withUuid, matched, value]
      split
      · simp only [ParseResult.outcome, fields]
      · rfl
    | cons => rfl

theorem alone_same {requirement : String} {message message' : OperatorMessage}
    (fields : message.fields = message'.fields) (same : List.Forall₂ SameLetters args args') :
    (alone rawSha requirement message args).outcome =
      (alone rawSha' requirement message' args').outcome := by
  cases same with
  | nil => simp only [alone, ParseResult.outcome, fields]
  | cons => rfl

theorem kill_same (ascii : ∀ t ∈ args, Ascii t) (ascii' : ∀ t ∈ args', Ascii t)
    (same : List.Forall₂ SameLetters args args') :
    (kill rawSha data args).outcome = (kill rawSha' data args').outcome := by
  cases same with
  | nil => rfl
  | cons first rest =>
    cases rest with
    | nil =>
      obtain ⟨matched, value⟩ := uuid_same first
      have upper := upper_same data (ascii _ (by simp)) (ascii' _ (by simp)) first
      simp only [kill, matched, value, upper]
      split_ifs <;> rfl
    | cons => rfl

theorem emergencyTransfer_same (ascii : ∀ t ∈ args, Ascii t) (ascii' : ∀ t ∈ args', Ascii t)
    (same : List.Forall₂ SameLetters args args') :
    (emergencyTransfer rawSha data body args).outcome =
      (emergencyTransfer rawSha' data body' args').outcome := by
  cases same with
  | nil => rfl
  | cons first rest =>
    cases rest with
    | nil => rfl
    | cons second rest =>
      cases rest with
      | nil =>
        have amount := amountDigits_same data (ascii _ (by simp)) (ascii' _ (by simp)) first
        have lower := lower_same data (ascii _ (by simp)) (ascii' _ (by simp)) second
        simp only [emergencyTransfer, amount, lower]
        split
        · rfl
        · split <;> rfl
      | cons => rfl

theorem outcome_ite {word : Prop} [Decidable word] {r s r' s' : ParseResult}
    (yes : r.outcome = r'.outcome) (no : s.outcome = s'.outcome) :
    (if word then r else s).outcome = (if word then r' else s').outcome := by
  split
  · exact yes
  · exact no

theorem command_same {verb verb' : Text} (ascii : ∀ t ∈ verb :: args, Ascii t)
    (ascii' : ∀ t ∈ verb' :: args', Ascii t)
    (same : List.Forall₂ SameLetters (verb :: args) (verb' :: args')) :
    (command rawSha data body (data.upper verb) args).outcome =
      (command rawSha' data body' (data.upper verb') args').outcome := by
  cases same with
  | cons first rest =>
    simp only [List.forall_mem_cons] at ascii ascii'
    rw [upper_same data ascii.1 ascii'.1 first]
    generalize data.upper verb' = word
    unfold command
    refine outcome_ite (withUuid_same (fun _ => rfl) rest) ?_
    refine outcome_ite (withUuid_same (fun _ => rfl) rest) ?_
    refine outcome_ite (alone_same rfl rest) ?_
    refine outcome_ite (alone_same rfl rest) ?_
    refine outcome_ite (kill_same ascii.2 ascii'.2 rest) ?_
    refine outcome_ite (withUuid_same (fun _ => rfl) rest) ?_
    refine outcome_ite (emergencyTransfer_same ascii.2 ascii'.2 rest) ?_
    rfl

end Same

end Accepts

section Parse
variable (sha256 : Sha256) (data : StrData) {subject body : Text}

theorem sha_ok (ascii : Ascii subject) (chars : Characters body) :
    ∃ rawSha, sha sha256 (strip (subject ++ text "\n" ++ body)) = .ok rawSha := by
  have raw : Characters (subject ++ text "\n" ++ body) :=
    characters_append (characters_append (characters_of_ascii ascii) (characters_text "\n")) chars
  have stripped : Characters (strip (subject ++ text "\n" ++ body)) := by
    intro c mem
    exact raw c (strip_subset _ mem)
  exact ⟨_, by rw [sha, encode_of_characters stripped]⟩

def answer (rawSha : String) (body : Text) : List Text → ParseResult
  | [] => rejectWith rawSha (text "empty_subject")
  | verb :: args => command rawSha data body (data.upper verb) args

theorem parse_of_sha {rawSha : String}
    (hashed : sha sha256 (strip (subject ++ text "\n" ++ body)) = .ok rawSha) :
    parse sha256 data subject body = .ok (answer data rawSha body (split subject)) := by
  rw [← split_strip subject]
  by_cases empty : strip subject = []
  · simp only [parse, hashed, empty, if_true]
    rfl
  · have some_token := split_ne_nil empty
    rcases tokens : split (strip subject) with _ | ⟨verb, args⟩
    · exact absurd tokens some_token
    · simp only [parse, hashed, empty, if_false, tokens, answer]
      rfl

/-- The answer depends on the tokens of the subject, and what is hashed is logged with it. -/
theorem parse_answer {result : ParseResult} (parsed : parse sha256 data subject body = .ok result) :
    ∃ rawSha, sha sha256 (strip (subject ++ text "\n" ++ body)) = .ok rawSha ∧
      result = answer data rawSha body (split subject) := by
  rcases hashed : sha sha256 (strip (subject ++ text "\n" ++ body)) with err | rawSha
  · simp only [parse, hashed] at parsed
    cases parsed
  · rw [parse_of_sha sha256 data hashed] at parsed
    cases parsed
    exact ⟨rawSha, rfl, rfl⟩

theorem parse_eq {parts : List Text} (ascii : Ascii subject) (chars : Characters body)
    (spaced : Spaced parts subject) :
    ∃ rawSha, parse sha256 data subject body = .ok (answer data rawSha body parts) := by
  obtain ⟨rawSha, hashed⟩ := sha_ok sha256 ascii chars
  refine ⟨rawSha, ?_⟩
  rw [parse_of_sha sha256 data hashed, spaced.split_eq]

variable {data} {parts : List Text}

theorem answer_of_denotes (rawSha : String) (ascii : ∀ t ∈ parts, Ascii t) {c : Command}
    (denotes : Denotes parts c) :
    ∃ m, answer data rawSha body parts = .operatorMessage m ∧ m.fields = c.fields := by
  cases parts with
  | nil => cases denotes
  | cons verb args => exact command_of_denotes ascii denotes

theorem denotes_of_answer {rawSha : String} (ascii : ∀ t ∈ parts, Ascii t) {m : OperatorMessage}
    (accepted : answer data rawSha body parts = .operatorMessage m) :
    ∃ c, Denotes parts c ∧ m.fields = c.fields := by
  cases parts with
  | nil => cases accepted
  | cons verb args =>
    obtain ⟨c, denotes⟩ := denotes_of_command ascii accepted
    obtain ⟨m', message, fields⟩ := answer_of_denotes rawSha ascii denotes
    obtain rfl : m' = m := ParseResult.operatorMessage.inj (message.symm.trans accepted)
    exact ⟨c, denotes, fields⟩

theorem answer_same {parts' : List Text} {body' : Text} (rawSha rawSha' : String)
    (ascii : ∀ t ∈ parts, Ascii t) (ascii' : ∀ t ∈ parts', Ascii t)
    (same : List.Forall₂ SameLetters parts parts') :
    (answer data rawSha body parts).outcome = (answer data rawSha' body' parts').outcome := by
  cases same with
  | nil => rfl
  | cons first rest => exact command_same ascii ascii' (.cons first rest)

end Parse

def killSha256 : Sha256 where
  hexdigest _ := "799fb0a8b796ac373ed093d4b172e884cfa7fffedb6fd41f0ddb102bddd675ef"
  hex := by
    intro bytes
    apply hex_of_all
    decide +kernel

/-- The parser accepts the grammar of the commands and nothing else, for every ASCII
    subject; neither the case of letters nor blanks nor the body make a difference. -/
theorem parse_grammar (sha256 : Sha256) (data : StrData) {subject body : Text}
    (ascii : Ascii subject) (chars : Characters body) :
    ∃ parts result, Spaced parts subject ∧ parse sha256 data subject body = .ok result ∧
      (∀ c, Denotes parts c ↔ ∃ m, result = .operatorMessage m ∧ m.fields = c.fields) ∧
      ((∀ c, ¬ Denotes parts c) → ∃ f, result = .formLetter f) ∧
      ∀ subject' body' parts', Ascii subject' → Characters body' → Spaced parts' subject' →
        List.Forall₂ SameLetters parts parts' →
        ∃ result', parse sha256 data subject' body' = .ok result' ∧
          result'.outcome = result.outcome := by
  have tokens : ∀ {t : Text} {parts : List Text}, Ascii t → Spaced parts t →
      ∀ part ∈ parts, Ascii part := fun ascii spaced part mem c inside =>
    ascii c (spaced.subset part mem inside)
  have spaced : Spaced (split subject) subject := split_iff_spaced.mp rfl
  obtain ⟨rawSha, parsed⟩ := parse_eq sha256 data ascii chars spaced
  refine ⟨_, _, spaced, parsed, ?_, ?_, ?_⟩
  · intro c
    constructor
    · exact answer_of_denotes rawSha (tokens ascii spaced)
    · intro accepted
      obtain ⟨m, message, fields⟩ := accepted
      obtain ⟨d, denotes, fields'⟩ := denotes_of_answer (tokens ascii spaced) message
      rwa [fields_injective (fields.symm.trans fields')]
  · intro none
    cases result : answer data rawSha body (split subject) with
    | formLetter f => exact ⟨f, rfl⟩
    | operatorMessage m =>
      obtain ⟨c, denotes, _⟩ := denotes_of_answer (tokens ascii spaced) result
      exact absurd denotes (none c)
  · intro subject' body' parts' ascii' chars' spaced' same
    obtain ⟨rawSha', parsed'⟩ := parse_eq sha256 data ascii' chars' spaced'
    exact ⟨_, parsed', (answer_same rawSha rawSha' (tokens ascii spaced) (tokens ascii' spaced')
      same).symm⟩

theorem kill_all_accepted :
    ∃ m, parse killSha256 asciiStrData (text " Kill  ALL") (text "now") =
      .ok (.operatorMessage m) ∧ m.fields = Command.killAll.fields := by
  have ascii : Ascii (text " Kill  ALL") := by
    have all : ((text " Kill  ALL").all fun c => c.val < 0x80) = true := by decide
    intro c mem
    simpa using List.all_eq_true.mp all c mem
  obtain ⟨parts, result, spaced, parsed, grammar, _⟩ :=
    parse_grammar killSha256 asciiStrData ascii (characters_text "now")
  have tokens : split (text " Kill  ALL") = [text "Kill", text "ALL"] := by decide
  rw [spaced.split_eq] at tokens
  have killAll : Denotes parts .killAll := by
    rw [tokens]
    exact .killAll (by unfold Spells SameLetters; decide) (by unfold Spells SameLetters; decide)
  obtain ⟨m, rfl, fields⟩ := (grammar .killAll).mp killAll
  exact ⟨m, parsed, fields⟩

end OperatorParser
