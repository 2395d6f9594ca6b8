import AgentEcosystem.Cashflow.EmergencyTransfers
import AgentEcosystem.Operator.CommandGrammar

/-!
The operator's command that signs an emergency transfer. It hashes the amount as
it was typed, and the ledger verifies the text of the number that was read from
it: they agree exactly on amounts typed the way a number is printed.
-/
namespace EmergencyTransferScript
open CashflowLedger DecimalArithmetic OperatorParser UnicodeText

section Numerals
variable (data : StrData)

def dropSign : Text → Text
  | [] => []
  | c :: cs => if c = ofChar '+' ∨ c = ofChar '-' then cs else c :: cs

def isExponent : Text → Bool
  | [] => true
  | e :: power =>
    let digits := dropSign power
    (e == ofChar 'e' || e == ofChar 'E') && !digits.isEmpty && digits.all (isDigit data)

def fractionSpan : Text → Text × Text
  | [] => ([], [])
  | c :: cs => if c = ofChar '.' then cs.span (isDigit data) else ([], c :: cs)

def isNumber (t : Text) : Bool :=
  let (whole, rest) := t.span (isDigit data)
  let (fraction, rest) := fractionSpan data rest
  (!whole.isEmpty || !fraction.isEmpty) && isExponent data rest

def isSpecial (t : Text) : Bool :=
  let lower := t.map lowerAscii
  lower == text "inf" || lower == text "infinity" ||
    ["nan", "snan"].any fun word =>
      (text word).isPrefixOf lower && (lower.drop (text word).length).all (isDigit data)

/-- Whether `Decimal(t)` reads the text: blanks around it and underscores do not count. -/
def readsDecimal (t : Text) : Bool :=
  let numeral := dropSign ((strip t).filter (· ≠ ofChar '_'))
  isNumber data numeral || isSpecial data numeral

end Numerals

example : ["007.50", " +1_000e-3 ", ".5", "sNaN12", "-Infinity"].all
    (fun s => readsDecimal asciiStrData (text s)) = true := by decide
example : ["", ".", "1e", "1,5", "0x10"].all
    (fun s => !readsDecimal asciiStrData (text s)) = true := by decide

structure Date where
  year : ℕ
  month : ℕ
  day : ℕ

def padded (width n : ℕ) : List Char := List.leftpad width '0' (Nat.toDigits 10 n)

def Date.isoformat (d : Date) : String :=
  String.ofList (padded 4 d.year ++ '-' :: (padded 2 d.month ++ '-' :: padded 2 d.day))

/-- What the command asks its surroundings for. -/
structure Host where
  environ : String → Option String
  today : Date

inductive SignError where
  | badParameter (msg : String)
  | invalidOperation
  deriving DecidableEq, Repr

section Command
variable (P : Platform) (host : Host) (data : StrData)

/-- An empty date counts as none. -/
def dateOrToday : Option String → String
  | none => host.today.isoformat
  | some d => if d = "" then host.today.isoformat else d

def signedMessage (amountUsd : String) (dateIso : Option String) : String :=
  s!"{amountUsd}|{dateOrToday host dateIso}"

def sign (amountUsd : String) (dateIso : Option String) (secretEnv : String) :
    Except SignError String :=
  let secret := (host.environ secretEnv).getD ""
  if secret = "" then .error (.badParameter s!"{secretEnv} not set")
  else if readsDecimal data (text amountUsd) then
    .ok (P.hmacHexdigest secret (signedMessage host amountUsd dateIso))
  else .error .invalidOperation

end Command

section Amounts
variable (data : StrData)

theorem filterMap_length {t : Text} (digits : ∀ c ∈ t, isDigit data c = true) :
    (t.filterMap data.digit).length = t.length := by
  induction t with
  | nil => rfl
  | cons c t ih =>
    obtain ⟨d, digit⟩ := Option.isSome_iff_exists.mp (digits c List.mem_cons_self)
    have later := ih fun e mem => digits e (List.mem_cons_of_mem c mem)
    simp [digit, later]

theorem digits_of_amount {t : Text} {whole cents : List (Fin 10)}
    (matched : amountDigits data t = some (whole, cents)) : whole ≠ [] ∧ cents.length ≤ 2 := by
  obtain ⟨before, behind, parts, rfl, rfl⟩ := amount_parts data matched
  constructor
  · intro none
    have count := filterMap_length data parts.digits
    rw [none] at count
    exact parts.nonempty (List.length_eq_zero_iff.mp count.symm)
  · rw [filterMap_length data parts.digits']
    rcases parts.shown with ⟨_, rfl⟩ | ⟨_, short⟩
    · exact Nat.zero_le 2
    · omega

theorem not_digit {c : Char} (ascii : (ofChar c).val < 0x80)
    (other : asciiData.digit (ofChar c) = none) : isDigit data (ofChar c) = false := by
  rw [isDigit, data.digit_ascii _ ascii, other]
  rfl

theorem amount_absent {t : Text} {whole cents : List (Fin 10)} {c : Char}
    (matched : amountDigits data t = some (whole, cents)) (ascii : (ofChar c).val < 0x80)
    (other : asciiData.digit (ofChar c) = none) (notPoint : ofChar c ≠ ofChar '.') :
    ofChar c ∉ t := by
  obtain ⟨before, behind, parts, _, _⟩ := amount_parts data matched
  have absent : ∀ digits : Text, (∀ d ∈ digits, isDigit data d = true) → ofChar c ∉ digits := by
    intro digits all inside
    have digit := all _ inside
    rw [not_digit data ascii other] at digit
    cases digit
  intro mem
  rcases parts.shown with ⟨rfl, _⟩ | ⟨rfl, _⟩
  · exact absent _ parts.digits mem
  · rcases List.mem_append.mp mem with first | rest
    · exact absent _ parts.digits first
    · rcases List.mem_cons.mp rest with same | second
      · exact notPoint same
      · exact absent _ parts.digits' second

theorem readsDecimal_amount {t : Text} {whole cents : List (Fin 10)} (solid : Solid t)
    (matched : amountDigits data t = some (whole, cents)) : readsDecimal data t = true := by
  obtain ⟨before, behind, parts, _, _⟩ := amount_parts data matched
  have kept : (strip t).filter (· ≠ ofChar '_') = t := by
    rw [strip_solid solid, List.filter_eq_self]
    intro c mem
    apply decide_eq_true
    rintro rfl
    exact amount_absent data matched (by decide) (by decide) (by decide) mem
  have unsigned : dropSign t = t := by
    cases t with
    | nil => rfl
    | cons c t =>
      rw [dropSign, if_neg]
      rintro (rfl | rfl)
      · exact amount_absent data matched (by decide) (by decide) (by decide) List.mem_cons_self
      · exact amount_absent data matched (by decide) (by decide) (by decide) List.mem_cons_self
  have span_whole : ∀ {s : Text}, (∀ c ∈ s, isDigit data c = true) →
      s.span (isDigit data) = (s, []) := by
    intro s digits
    have parts := span_before digits (show ∀ c ∈ ([] : Text).head?, isDigit data c = false by simp)
    rwa [List.append_nil] at parts
  have number : isNumber data t = true := by
    have some_digit : before.isEmpty = false := by simpa using parts.nonempty
    rcases parts.shown with ⟨rfl, _⟩ | ⟨rfl, _⟩
    · have whole := span_whole parts.digits
      simp only [isNumber, whole, fractionSpan, isExponent, some_digit, Bool.not_false,
        Bool.true_or, Bool.and_self]
    · have ends : ∀ c ∈ (ofChar '.' :: behind).head?, isDigit data c = false := by
        intro c head
        cases head
        exact not_digit data (by decide) (by decide)
      have whole := span_before parts.digits ends
      have fraction := span_whole parts.digits'
      simp only [isNumber, whole, fractionSpan, if_true, fraction, isExponent, some_digit,
        Bool.not_false, Bool.true_or, Bool.and_self]
  simp only [readsDecimal, kept, unsigned, number, Bool.true_or]

end Amounts

def amountText (whole cents : List (Fin 10)) : Text :=
  whole.map digitChar ++ if cents = [] then [] else ofChar '.' :: cents.map digitChar

def Trimmed (whole : List (Fin 10)) : Prop :=
  whole ≠ [] ∧ (whole.head? = some 0 → whole.length = 1)

def Plain (amount : Text) : Prop :=
  ∃ whole cents, AmountText amount whole cents ∧ Trimmed whole

def trimZeros : List (Fin 10) → List (Fin 10)
  | [] => []
  | d :: ds => if d = 0 ∧ ds ≠ [] then trimZeros ds else d :: ds

theorem trimZeros_trimmed {whole : List (Fin 10)} (nonempty : whole ≠ []) :
    Trimmed (trimZeros whole) := by
  induction whole with
  | nil => exact absurd rfl nonempty
  | cons d ds ih =>
    by_cases superfluous : d = 0 ∧ ds ≠ []
    · rw [trimZeros, if_pos superfluous]
      exact ih superfluous.2
    · rw [trimZeros, if_neg superfluous]
      refine ⟨List.cons_ne_nil _ _, ?_⟩
      intro zero
      have first : d = 0 := by simpa using zero
      have alone : ds = [] := by
        by_contra more
        exact superfluous ⟨first, more⟩
      rw [alone]
      rfl

theorem decimalOf_trimZeros (whole cents : List (Fin 10)) :
    decimalOf (trimZeros whole) cents = decimalOf whole cents := by
  induction whole with
  | nil => rfl
  | cons d ds ih =>
    by_cases superfluous : d = 0 ∧ ds ≠ []
    · rw [trimZeros, if_pos superfluous, ih, superfluous.1]
      simp [decimalOf, ofDigits]
    · rw [trimZeros, if_neg superfluous]

/- A number's digits are the ones it was read from, unless the first is a zero. -/
theorem toDigits_ofDigits {ds : List (Fin 10)} {d : Fin 10} (head : ds.head? = some d)
    (nonzero : d ≠ 0) :
    0 < ofDigits ds ∧ Nat.toDigits 10 (ofDigits ds) = ds.map fun d => d.val.digitChar := by
  induction ds using List.reverseRecOn with
  | nil => cases head
  | append_singleton ds e ih =>
    have value : ofDigits (ds ++ [e]) = 10 * ofDigits ds + e.val := by simp [ofDigits]
    have last := Nat.toDigits_of_lt_base (b := 10) e.isLt
    rw [value]
    cases ds with
    | nil =>
      cases head
      have pos : 0 < d.val := Nat.pos_of_ne_zero (Fin.val_ne_zero_iff.mpr nonzero)
      have none : ofDigits [] = 0 := rfl
      rw [none, Nat.mul_zero, Nat.zero_add, last]
      exact ⟨pos, rfl⟩
    | cons c cs =>
      obtain ⟨pos, digits⟩ := ih head
      have joined := Nat.toDigits_append_toDigits (b := 10) (by decide) pos e.isLt
      rw [← joined, digits, last, List.map_append]
      exact ⟨by omega, rfl⟩

theorem digitChar_ofChar (d : Fin 10) : ofChar d.val.digitChar = digitChar d := by
  revert d
  decide

theorem text_digits (ds : List (Fin 10)) :
    (ds.map fun d => d.val.digitChar).map ofChar = ds.map digitChar := by
  simp [digitChar_ofChar]

theorem text_str_zero : text (decimalOf [0] []).str = amountText [0] [] ∧
    (∀ c, text (decimalOf [0] [c]).str = amountText [0] [c]) ∧
    ∀ c d, text (decimalOf [0] [c, d]).str = amountText [0] [c, d] := by
  decide +kernel

/-- A number read from an amount prints as the amount, unless superfluous zeros were typed. -/
theorem text_str {whole cents : List (Fin 10)} (trimmed : Trimmed whole) (short : cents.length ≤ 2) :
    text (decimalOf whole cents).str = amountText whole cents := by
  obtain ⟨nonempty, alone⟩ := trimmed
  cases whole with
  | nil => exact absurd rfl nonempty
  | cons d ds =>
    by_cases zero : d = 0
    · subst zero
      obtain rfl : ds = [] := by simpa using alone rfl
      match cents, short with
      | [], _ => exact text_str_zero.1
      | [c], _ => exact text_str_zero.2.1 c
      | [c, d], _ => exact text_str_zero.2.2 c d
    · have first : (d :: ds ++ cents).head? = some d := rfl
      obtain ⟨_, digits⟩ := toDigits_ofDigits first zero
      have count : (Nat.toDigits 10 (ofDigits (d :: ds ++ cents))).length =
          ((d :: ds).map fun d => d.val.digitChar).length + cents.length := by
        rw [digits, List.map_append, List.length_append, List.length_map, List.length_map]
      have shown := str_whole (n := ofDigits (d :: ds ++ cents)) (k := cents.length)
        (by rw [count]; simp)
      rw [count, Nat.add_sub_cancel, digits, List.map_append, List.take_left, List.drop_left] at shown
      change (decimalOf (d :: ds) cents).str.toList.map ofChar = _
      rw [decimalOf, Decimal.str, shown, List.map_append, text_digits, amountText]
      by_cases none : cents = []
      · simp [none]
      · simp [none, digitChar_ofChar]

theorem amountText_shape {whole cents : List (Fin 10)} (nonempty : whole ≠ [])
    (short : cents.length ≤ 2) : AmountText (amountText whole cents) whole cents := by
  match cents, short with
  | [], _ =>
    have shape := AmountText.whole nonempty
    rwa [← List.append_nil (whole.map digitChar)] at shape
  | [c], _ => exact .cents nonempty (.inl rfl)
  | [c, d], _ => exact .cents nonempty (.inr rfl)

theorem amount_shown {t : Text} {whole cents : List (Fin 10)}
    (amount : AmountText t whole cents) : t = amountText whole cents ∧ cents.length ≤ 2 := by
  cases amount with
  | whole nonempty => simp [amountText]
  | cents nonempty short =>
    have some_cent : cents ≠ [] := by
      rintro rfl
      simp at short
    simp only [amountText, some_cent, if_false, true_and]
    omega

theorem amount_ascii {t : Text} {whole cents : List (Fin 10)}
    (amount : AmountText t whole cents) : Ascii t := by
  have digits : ∀ ds : List (Fin 10), Ascii (ds.map digitChar) := by
    intro ds c mem
    obtain ⟨d, _, rfl⟩ := List.mem_map.mp mem
    have all : ∀ d : Fin 10, (digitChar d).val < 0x80 := by decide
    exact all d
  cases amount with
  | whole nonempty => exact digits _
  | cents nonempty short =>
    intro c mem
    rcases List.mem_append.mp mem with before | rest
    · exact digits _ c before
    · rcases List.mem_cons.mp rest with rfl | behind
      · decide
      · exact digits _ c behind

theorem str_eq_iff (data : StrData) {typed : String} {whole cents : List (Fin 10)}
    (matched : amountDigits data (text typed) = some (whole, cents)) :
    (decimalOf whole cents).str = typed ↔ Plain (text typed) := by
  obtain ⟨nonempty, short⟩ := digits_of_amount data matched
  constructor
  · intro same
    have trimmed := trimZeros_trimmed nonempty
    have shown := text_str trimmed short
    rw [decimalOf_trimZeros, same] at shown
    refine ⟨_, cents, ?_, trimmed⟩
    rw [shown]
    exact amountText_shape trimmed.1 short
  · rintro ⟨whole', cents', amount, trimmed⟩
    rw [(amountDigits_iff data (amount_ascii amount)).mpr amount] at matched
    cases matched
    apply text_injective
    rw [text_str trimmed short]
    exact (amount_shown amount).1.symm

theorem amount_extracted {sha256 : AgentSchemas.Sha256} {data : StrData} {subject body verb amount direction : Text}
    {m : OperatorMessage} {amountUsd : Decimal} (tokens : split subject = [verb, amount, direction])
    (parsed : parse sha256 data subject body = .ok (.operatorMessage m))
    (carries : m.amountUsd = some amountUsd) :
    ∃ whole cents, amountDigits data amount = some (whole, cents) ∧
      amountUsd = decimalOf whole cents := by
  obtain ⟨rawSha, _, answered⟩ := parse_answer sha256 data parsed
  rw [tokens] at answered
  -- of two arguments every other command makes a form letter
  simp only [answer, command, withUuid, alone, kill, rejectWith, emergencyTransfer] at answered
  split_ifs at answered
  split at answered
  · cases answered
  · next whole cents matched =>
    cases answered
    cases carries
    exact ⟨whole, cents, matched, rfl⟩

theorem isoformat_ne_empty (d : Date) : d.isoformat ≠ "" := by
  intro empty
  have chars := congrArg String.toList empty
  simp [Date.isoformat] at chars

theorem dateOrToday_eq_iff (host : Host) (dateIso : String) :
    dateIso = dateOrToday host (some dateIso) ↔ dateIso ≠ "" := by
  by_cases empty : dateIso = ""
  · simp [dateOrToday, empty, (isoformat_ne_empty host.today).symm]
  · simp [dateOrToday, empty]

theorem amount_no_bar {data : StrData} {typed : String} {whole cents : List (Fin 10)}
    (matched : amountDigits data (text typed) = some (whole, cents)) : '|' ∉ typed.toList := by
  intro mem
  have inside : ofChar '|' ∈ text typed := List.mem_map_of_mem mem
  exact amount_absent data matched (by decide) (by decide) (by decide) inside

/- What is verified is what was signed if the amount is printed as it was typed. -/
theorem message_eq_iff {data : StrData} (host : Host) {typed : String} {whole cents : List (Fin 10)}
    (matched : amountDigits data (text typed) = some (whole, cents)) (dateIso : String) :
    emergencyMessage (decimalOf whole cents) dateIso = signedMessage host typed (some dateIso) ↔
      Plain (text typed) ∧ dateIso ≠ "" := by
  have signed : (signedMessage host typed (some dateIso)).toList =
      typed.toList ++ '|' :: (dateOrToday host (some dateIso)).toList := by
    simp only [signedMessage, String.toList_append, List.append_assoc]
    rfl
  rw [← str_eq_iff data matched, ← dateOrToday_eq_iff host dateIso]
  constructor
  · intro same
    have chars := congrArg String.toList same
    rw [emergencyMessage_toList, signed] at chars
    obtain ⟨amount, date⟩ := bar_splits (str_no_bar _) (amount_no_bar matched) chars
    exact ⟨String.toList_injective amount, String.toList_injective date⟩
  · rintro ⟨amount, date⟩
    apply String.toList_injective
    rw [emergencyMessage_toList, signed, amount, ← date]

/-- The signature of a typed amount is accepted for the number that the parser reads
    from it, exactly if the amount was typed plainly and there is a date. -/
theorem signature_accepted_iff (P : Platform) (host : Host) (sha256 : AgentSchemas.Sha256)
    (data : StrData) {secretEnv secret : String} (env : host.environ secretEnv = some secret)
    (nonempty : secret ≠ "") {subject body verb direction : Text} {typed : String}
    (tokens : split subject = [verb, text typed, direction]) {m : OperatorMessage}
    {amountUsd : Decimal} (parsed : parse sha256 data subject body = .ok (.operatorMessage m))
    (carries : m.amountUsd = some amountUsd) (dateIso : String)
    (ascii : ∀ msg, ∀ c ∈ (P.hmacHexdigest secret msg).toList, c.toNat < 128)
    (injective : P.hmacHexdigest secret (emergencyMessage amountUsd dateIso) =
      P.hmacHexdigest secret (signedMessage host typed (some dateIso)) →
        emergencyMessage amountUsd dateIso = signedMessage host typed (some dateIso)) :
    ∃ signature, sign P host data typed (some dateIso) secretEnv = .ok signature ∧
      (verifyEmergencyHmac P secret amountUsd dateIso signature = .ok true ↔
        Plain (text typed) ∧ dateIso ≠ "") := by
  obtain ⟨whole, cents, matched, rfl⟩ := amount_extracted tokens parsed carries
  have solid : Solid (text typed) := by
    have spaced : Spaced [verb, text typed, direction] subject := split_iff_spaced.mp tokens
    exact spaced.solid _ (by simp)
  refine ⟨P.hmacHexdigest secret (signedMessage host typed (some dateIso)), ?_, ?_⟩
  · simp only [sign, env, Option.getD_some, nonempty, if_false,
      readsDecimal_amount data solid matched, if_true]
  · have compared : verifyEmergencyHmac P secret (decimalOf whole cents) dateIso
        (P.hmacHexdigest secret (signedMessage host typed (some dateIso))) =
        .ok (P.hmacHexdigest secret (emergencyMessage (decimalOf whole cents) dateIso) ==
          P.hmacHexdigest secret (signedMessage host typed (some dateIso))) := by
      have chars : ∀ msg, ((P.hmacHexdigest secret msg).toList.all fun c => c.toNat < 128) = true :=
        fun msg => List.all_eq_true.mpr fun c mem => decide_eq_true (ascii msg c mem)
      rw [verifyEmergencyHmac, compareDigest, chars, chars]
      rfl
    rw [compared, ← message_eq_iff host matched dateIso]
    simp only [Except.ok.injEq, beq_iff_eq]
    exact ⟨injective, fun same => congrArg _ same⟩

def typedDigest : String := "36af0ec55ec3e986ef36d6635befab27521106930995ad5910e5360d89450570"
def printedDigest : String := "eff52559b49862a211b5bb8839d71a7f88083b64123796eb35d928cbd2d78f6a"

def signingPlatform : Platform where
  hmacHexdigest _ msg := if msg = "007.50|2026-04-18" then typedDigest else printedDigest
  acceptsDecimal := fieldCheck
  acceptsDecimal_iff _ _ := fieldCheck_iff

def signingHost : Host where
  environ name := if name = "OPERATOR_HMAC_SECRET" then some "test-secret" else none
  today := ⟨2026, 4, 19⟩

def transferSubject (amount : String) : Text :=
  text "EMERGENCY_TRANSFER " ++ text amount ++ text " reserve->operating"

theorem plain_signature_accepted :
    ∃ signature, sign signingPlatform signingHost asciiStrData "7.50" (some "2026-04-18")
        "OPERATOR_HMAC_SECRET" = .ok signature ∧
      (verifyEmergencyHmac signingPlatform "test-secret" (decimalOf [7] [5, 0]) "2026-04-18"
          signature = .ok true ↔ Plain (text "7.50") ∧ "2026-04-18" ≠ "") := by
  have ascii : ∀ digest ∈ [typedDigest, printedDigest], ∀ c ∈ digest.toList, c.toNat < 128 := by
    have all : ([typedDigest, printedDigest].all fun digest =>
        digest.toList.all fun c => decide (c.toNat < 128)) = true := by decide
    intro digest mem c inside
    exact of_decide_eq_true (List.all_eq_true.mp (List.all_eq_true.mp all digest mem) c inside)
  have tokens : split (transferSubject "7.50") =
      [text "EMERGENCY_TRANSFER", text "7.50", text "reserve->operating"] := by decide
  obtain ⟨m, parsed, carries⟩ : ∃ m, parse killSha256 asciiStrData (transferSubject "7.50") [] =
      .ok (.operatorMessage m) ∧ m.amountUsd = some (decimalOf [7] [5, 0]) := ⟨_, rfl, rfl⟩
  apply signature_accepted_iff signingPlatform signingHost killSha256 asciiStrData rfl (by decide)
    tokens parsed carries
  · intro msg
    by_cases typed : msg = "007.50|2026-04-18"
    · simp only [signingPlatform, typed, if_true]
      exact ascii _ (by simp)
    · simp only [signingPlatform, typed, if_false]
      exact ascii _ (by simp)
  · intro _
    decide

/-- The signature printed for 007.50 is refused for the number read from 007.50. -/
theorem padded_signature_refused :
    (∃ m, parse killSha256 asciiStrData (transferSubject "007.50") [] = .ok (.operatorMessage m) ∧
      m.amountUsd = some (decimalOf [0, 0, 7] [5, 0])) ∧
    sign signingPlatform signingHost asciiStrData "007.50" (some "2026-04-18")
      "OPERATOR_HMAC_SECRET" = .ok typedDigest ∧
    verifyEmergencyHmac signingPlatform "test-secret" (decimalOf [0, 0, 7] [5, 0]) "2026-04-18"
      typedDigest = .ok false := by
  refine ⟨?_, by decide +kernel, by decide +kernel⟩
  exact ⟨_, rfl, rfl⟩

end EmergencyTransferScript
