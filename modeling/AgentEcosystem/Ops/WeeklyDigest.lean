import AgentEcosystem.Calendar
import AgentEcosystem.CodeBuilder.Builder
import AgentEcosystem.Decimal.DecimalText
import AgentEcosystem.Gmail.FormLetters
import AgentEcosystem.Operator.SignCommand
import AgentEcosystem.Ops.DriftChecks

/-!
The weekly mail to the operator. Every figure stands on a line of its own, and all of
them can be read back from the text, whatever the notes below them say.
-/
namespace DigestMail
open Calendar CodeBuilder DecimalArithmetic EmergencyTransferScript FreezeExperiment PushWebhook
  UnicodeText

def maxOrdinal : ℕ := 3652059

structure DateTime where
  day : ℕ
  valid : 1 ≤ day ∧ day ≤ maxOrdinal

inductive DigestError where
  | overflowError
  | frozen (e : FreezeError)
  | validationError
  | valueError
  deriving Repr

def DateTime.addDays (t : DateTime) (n : ℤ) : Except DigestError DateTime :=
  if valid : 1 ≤ (t.day + n).toNat ∧ (t.day + n).toNat ≤ maxOrdinal then
    .ok ⟨(t.day + n).toNat, valid⟩
  else .error .overflowError

/-- A field for a decimal takes finite numbers only. -/
def finiteField : Decimal → Except DigestError FiniteDecimal
  | .finite x => .ok x
  | _ => .error .validationError

structure Balances where
  operating : FiniteDecimal
  reserve : FiniteDecimal
  growth : FiniteDecimal

structure WeeklyDigest where
  weekStart : DateTime
  weekEnd : DateTime
  potBalances : Balances
  revenueUsd : FiniteDecimal
  costUsd : FiniteDecimal
  activeChildren : ℤ
  proposalsAwaitingApproval : ℤ
  ethicsEscalations : ℤ
  frozenHashDrift : Bool
  notes : List Text
  humanReplyDeadline : DateTime

structure Week where
  potBalances : Balances
  revenueUsd : Decimal
  costUsd : Decimal
  activeChildren : ℤ
  proposalsAwaitingApproval : ℤ
  ethicsEscalations : ℤ
  notes : Option (List Text) := none

def buildWeeklyDigest (host : FreezeExperiment.Host) (tree : FreezeExperiment.Tree)
    (now : DateTime) (week : Week) : Except DigestError WeeklyDigest := do
  let weekStart ← now.addDays (-7)
  let code ← (verifyExitCode host tree).mapError .frozen
  let humanReplyDeadline ← now.addDays 14
  let revenueUsd ← finiteField week.revenueUsd
  let costUsd ← finiteField week.costUsd
  return {
    weekStart
    weekEnd := now
    potBalances := week.potBalances
    revenueUsd
    costUsd
    activeChildren := week.activeChildren
    proposalsAwaitingApproval := week.proposalsAwaitingApproval
    ethicsEscalations := week.ethicsEscalations
    frozenHashDrift := code ≠ 0
    notes := week.notes.getD []
    humanReplyDeadline }

/-- `str(t.date())` -/
def DateTime.date (t : DateTime) : Text :=
  let d := ofOrdinal t.day
  text (Date.isoformat ⟨d.year, d.month, d.day⟩)

def count (n : ℤ) : Except DigestError Text :=
  (pythonInt n).mapError (fun _ => DigestError.valueError) |>.map text

def figureLines (d : WeeklyDigest) (children proposals escalations : Text) : List Text :=
  [text "Weekly AAE digest",
    text "Week: " ++ d.weekStart.date ++ text " → " ++ d.weekEnd.date,
    [],
    text "Operating: $" ++ text d.potBalances.operating.str,
    text "Reserve:   $" ++ text d.potBalances.reserve.str,
    text "Growth:    $" ++ text d.potBalances.growth.str,
    [],
    text "Revenue (7d): $" ++ text d.revenueUsd.str,
    text "Cost (7d):    $" ++ text d.costUsd.str,
    text "Active children: " ++ children,
    text "Proposals awaiting approval: " ++ proposals,
    text "Ethics escalations: " ++ escalations,
    text "Frozen-hash drift: " ++ text (if d.frozenHashDrift then "True" else "False"),
    [],
    text "Reply CONTINUE / PAUSE / KILL [ALL|<child_id>] by " ++ d.humanReplyDeadline.date ++
      text " or the system auto-PAUSEs."]

def noteLines (notes : List Text) : List Text :=
  if notes = [] then [] else [] :: text "Notes:" :: notes.map (text "- " ++ ·)

def renderDigestEmail (d : WeeklyDigest) : Except DigestError Text := do
  let children ← count d.activeChildren
  let proposals ← count d.proposalsAwaitingApproval
  let escalations ← count d.ethicsEscalations
  return joinLines (figureLines d children proposals escalations ++ noteLines d.notes)

def chars (t : Text) : List Char := t.map fun c => Char.ofNat c.val

def behind (label : String) (line : Text) : Text := line.drop (text label).length

def readNumber (t : Text) : ℚ := readText (chars t)

def readDay (t : Text) : ℕ :=
  let cs := chars t
  ordinal ⟨Nat.ofDigitChars 10 (cs.take 4) 0, Nat.ofDigitChars 10 ((cs.drop 5).take 2) 0,
    Nat.ofDigitChars 10 ((cs.drop 8).take 2) 0⟩

structure Figures where
  weekStart : ℕ
  weekEnd : ℕ
  operating : ℚ
  reserve : ℚ
  growth : ℚ
  revenue : ℚ
  cost : ℚ
  activeChildren : ℚ
  proposalsAwaitingApproval : ℚ
  ethicsEscalations : ℚ
  frozenHashDrift : Bool
  replyBy : ℕ

/-- Each figure from its line, whatever comes behind the last of them. -/
def readFigures (mail : Text) : Option Figures :=
  match linesOf mail with
  | _ :: week :: _ :: operating :: reserve :: growth :: _ :: revenue :: cost :: children ::
      proposals :: escalations :: drift :: _ :: reply :: _ => some {
    weekStart := readDay (behind "Week: " week)
    weekEnd := readDay (behind "Week: 0000-00-00 → " week)
    operating := readNumber (behind "Operating: $" operating)
    reserve := readNumber (behind "Reserve:   $" reserve)
    growth := readNumber (behind "Growth:    $" growth)
    revenue := readNumber (behind "Revenue (7d): $" revenue)
    cost := readNumber (behind "Cost (7d):    $" cost)
    activeChildren := readNumber (behind "Active children: " children)
    proposalsAwaitingApproval := readNumber (behind "Proposals awaiting approval: " proposals)
    ethicsEscalations := readNumber (behind "Ethics escalations: " escalations)
    frozenHashDrift := behind "Frozen-hash drift: " drift == text "True"
    replyBy := readDay (behind "Reply CONTINUE / PAUSE / KILL [ALL|<child_id>] by " reply) }
  | _ => none

def readNotes (mail : Text) : List Text := ((linesOf mail).drop 17).map (behind "- ")

theorem oneLine_append {s t : Text} (first : OneLine s) (second : OneLine t) :
    OneLine (s ++ t) := by
  intro mem
  rcases List.mem_append.mp mem with mem | mem
  · exact first mem
  · exact second mem

theorem oneLine_text {s : String} (one : '\n' ∉ s.toList) : OneLine (text s) := by
  intro mem
  obtain ⟨c, member, same⟩ := List.mem_map.mp mem
  exact one (ofChar_injective same ▸ member)

theorem linesOf_cons {line : Text} (one : OneLine line) (rest : Text) :
    linesOf (line ++ ofChar '\n' :: rest) = line :: linesOf rest := by
  apply List.splitOnP_append_cons_of_forall_mem
  · intro c mem
    exact beq_false_of_ne fun same => one (same ▸ mem)
  · exact BEq.rfl

theorem joinLines_cons (line : Text) {lines : List Text} (some : lines ≠ []) :
    joinLines (line :: lines) = line ++ ofChar '\n' :: joinLines lines := by
  obtain ⟨next, lines, rfl⟩ := List.exists_cons_of_ne_nil some
  rfl

/-- The lines of a text, where those it was joined of may have breaks in them. -/
theorem linesOf_join {lines : List Text} (some : lines ≠ []) :
    linesOf (joinLines lines) = lines.flatMap linesOf := by
  induction lines with
  | nil => exact absurd rfl some
  | cons line lines ih =>
    cases lines with
    | nil => simp [joinLines, List.intercalate]
    | cons next lines =>
      have later : (next :: lines) ≠ [] := List.cons_ne_nil next lines
      rw [joinLines_cons line later, List.flatMap_cons, ← ih later]
      exact List.splitOnP_append_cons line _ BEq.rfl

theorem linesOf_oneLine {line : Text} (one : OneLine line) : linesOf line = [line] := by
  apply List.splitOnP_eq_singleton
  intro c mem
  exact beq_false_of_ne fun same => one (same ▸ mem)

theorem flatMap_oneLine {lines : List Text} (one : ∀ line ∈ lines, OneLine line) :
    lines.flatMap linesOf = lines := by
  induction lines with
  | nil => rfl
  | cons line lines ih =>
    obtain ⟨first, later⟩ := List.forall_mem_cons.mp one
    rw [List.flatMap_cons, linesOf_oneLine first, ih later, List.singleton_append]

theorem length_linesOf (t : Text) : (linesOf t).length = t.count (ofChar '\n') + 1 := by
  induction t with
  | nil => rfl
  | cons c t ih =>
    by_cases break_ : c = ofChar '\n'
    · subst break_
      have first : linesOf (ofChar '\n' :: t) = [] :: linesOf t := linesOf_cons List.not_mem_nil t
      rw [first, List.length_cons, ih, List.count_cons_self]
    · have kept : linesOf (c :: t) = (linesOf t).modifyHead (c :: ·) := by
        rw [linesOf, List.splitOn_cons_eq_if_modifyHead, if_neg (by simpa using break_)]
        rfl
      rw [kept, List.length_modifyHead, ih, List.count_cons_of_ne break_]

theorem length_le_lines (lines : List Text) : lines.length ≤ (lines.flatMap linesOf).length := by
  induction lines with
  | nil => exact Nat.le_refl 0
  | cons line lines ih =>
    rw [List.flatMap_cons, List.length_append, length_linesOf, List.length_cons]
    omega

/- Lines that are no more when they are read were without breaks. -/
theorem oneLine_of_length {lines : List Text}
    (few : (lines.flatMap linesOf).length ≤ lines.length) : ∀ line ∈ lines, OneLine line := by
  induction lines with
  | nil => simp
  | cons line lines ih =>
    rw [List.flatMap_cons, List.length_append, length_linesOf, List.length_cons] at few
    have later := length_le_lines lines
    have unbroken : line.count (ofChar '\n') = 0 := by omega
    exact List.forall_mem_cons.mpr ⟨List.count_eq_zero.mp unbroken, ih (by omega)⟩

theorem chars_text (s : String) : chars (text s) = s.toList := by
  rw [chars, text, List.map_map]
  conv => rhs; rw [← List.map_id s.toList]
  apply List.map_congr_left
  intro c mem
  rw [Function.comp_apply, ofChar_val, Char.ofNat_toNat]
  rfl

theorem chars_append (s t : Text) : chars (s ++ t) = chars s ++ chars t := List.map_append

theorem behind_label (label : String) (line : Text) : behind label (text label ++ line) = line :=
  List.drop_left

theorem readNumber_decimal (x : FiniteDecimal) : readNumber (text x.str) = x.toRat := by
  rw [readNumber, chars_text, readText_str]

theorem decimal_oneLine (x : FiniteDecimal) : OneLine (text x.str) := by
  apply oneLine_text
  intro mem
  rcases str_chars mem with digit | other | other | other | other
  · exact absurd digit (by decide)
  all_goals exact absurd other (by decide)

theorem toString_toList (n : ℤ) : (toString n).toList =
    if 0 ≤ n then Nat.toDigits 10 n.natAbs else '-' :: Nat.toDigits 10 n.natAbs := by
  rw [Int.toString_eq_repr, Int.repr_eq_if]
  split
  · have same : n.toNat = n.natAbs := by omega
    rw [same, Nat.toList_repr]
  · have same : (-n).toNat = n.natAbs := by omega
    rw [same, String.toList_append, Nat.toList_repr]
    rfl

theorem readUnsigned_digits (n : ℕ) : readUnsigned (Nat.toDigits 10 n) = n := by
  have digits : ∀ c ∈ Nat.toDigits 10 n, c.isDigit = true := fun c => isDigit_toDigits
  obtain ⟨take, drop⟩ := takeWhile_before (p := (· ≠ 'E')) (Nat.toDigits 10 n) []
    (fun c mem => by simpa using digit_ne (digits c mem) (by decide)) (by simp)
  rw [List.append_nil] at take drop
  rw [readUnsigned, take, drop, readMantissa_whole digits, Nat.ofDigitChars_ten_toDigits]
  simp [readPower]

theorem readNumber_int (n : ℤ) : readNumber (text (toString n)) = n := by
  rw [readNumber, chars_text, toString_toList]
  have value := readUnsigned_digits n.natAbs
  split
  · have some : Nat.toDigits 10 n.natAbs ≠ [] := Nat.toDigits_ne_nil
    obtain ⟨c, cs, shape⟩ := List.exists_cons_of_ne_nil some
    have digit : c.isDigit = true := isDigit_toDigits (shape ▸ List.mem_cons_self)
    rw [shape] at value ⊢
    rw [readText, if_neg (digit_ne digit (by decide)), value]
    have same : (n.natAbs : ℤ) = n := by omega
    rw [← Int.cast_natCast, same]
  · rw [readText, if_pos rfl, value]
    have same : -(n.natAbs : ℤ) = n := by omega
    exact_mod_cast same

theorem int_oneLine (n : ℤ) : OneLine (text (toString n)) := by
  apply oneLine_text
  rw [toString_toList]
  have digits : '\n' ∉ Nat.toDigits 10 n.natAbs := by
    intro mem
    exact absurd (isDigit_toDigits mem) (by decide)
  split
  · exact digits
  · exact List.not_mem_cons_of_ne_of_not_mem (by decide) digits

theorem padded_length {width n : ℕ} (fits : n < 10 ^ width) (pos : 0 < width) :
    (padded width n).length = width := by
  rw [padded, List.length_leftpad]
  have short := (Nat.length_toDigits_le_iff (b := 10) (by decide) pos).mpr fits
  omega

theorem padded_value (width n : ℕ) : Nat.ofDigitChars 10 (padded width n) 0 = n := by
  rw [padded, List.leftpad, Nat.ofDigitChars_append, Nat.ofDigitChars_replicate_zero, Nat.mul_zero,
    Nat.ofDigitChars_ten_toDigits]

theorem date_parts {ys ms ds : List Char} (rest : List Char) (year : ys.length = 4)
    (month : ms.length = 2) (day : ds.length = 2) :
    let cs := (ys ++ '-' :: (ms ++ '-' :: ds)) ++ rest
    cs.take 4 = ys ∧ (cs.drop 5).take 2 = ms ∧ (cs.drop 8).take 2 = ds := by
  match ys, ms, ds, year, month, day with
  | [_, _, _, _], [_, _], [_, _], _, _, _ => exact ⟨rfl, rfl, rfl⟩

theorem date_lengths (t : DateTime) : (padded 4 (ofOrdinal t.day).year).length = 4 ∧
    (padded 2 (ofOrdinal t.day).month).length = 2 ∧
    (padded 2 (ofOrdinal t.day).day).length = 2 := by
  obtain ⟨_, date⟩ := ofOrdinal_spec t.valid.1
  have fourDigits := ofOrdinal_year t.valid.2
  have twelve := date.month.2
  have thirtyOne := date.day.2
  exact ⟨padded_length (by omega) (by decide), padded_length (by omega) (by decide),
    padded_length (by omega) (by decide)⟩

theorem readDay_date (t : DateTime) (rest : Text) : readDay (t.date ++ rest) = t.day := by
  obtain ⟨year, month, day⟩ := date_lengths t
  obtain ⟨ys, ms, ds⟩ := date_parts (chars rest) year month day
  have written : chars (t.date ++ rest) = (padded 4 (ofOrdinal t.day).year ++ '-' ::
      (padded 2 (ofOrdinal t.day).month ++ '-' :: padded 2 (ofOrdinal t.day).day)) ++
      chars rest := by
    rw [chars_append, DateTime.date, chars_text, Date.isoformat, String.toList_ofList]
  rw [readDay, written, ys, ms, ds, padded_value, padded_value, padded_value]
  exact (ofOrdinal_spec t.valid.1).1

theorem date_length (t : DateTime) : t.date.length = 10 := by
  obtain ⟨year, month, day⟩ := date_lengths t
  rw [DateTime.date, text, List.length_map, Date.isoformat, String.toList_ofList]
  simp only [List.length_append, List.length_cons, year, month, day]

theorem padded_digits {width n : ℕ} {c : Char} (mem : c ∈ padded width n) :
    c.isDigit = true := by
  rw [padded, List.leftpad] at mem
  rcases List.mem_append.mp mem with zero | digit
  · rw [(List.mem_replicate.mp zero).2]
    decide
  · exact isDigit_toDigits digit

theorem date_oneLine (t : DateTime) : OneLine t.date := by
  apply oneLine_text
  rw [Date.isoformat, String.toList_ofList]
  intro mem
  simp only [List.mem_append, List.mem_cons] at mem
  rcases mem with year | dash | month | dash | day
  · exact absurd (padded_digits year) (by decide)
  · exact absurd dash (by decide)
  · exact absurd (padded_digits month) (by decide)
  · exact absurd dash (by decide)
  · exact absurd (padded_digits day) (by decide)

theorem figureLines_oneLine (d : WeeklyDigest) {children proposals escalations : Text}
    (first : OneLine children) (second : OneLine proposals) (third : OneLine escalations) :
    ∀ line ∈ figureLines d children proposals escalations, OneLine line := by
  have label {s : String} {t : Text} (one : '\n' ∉ s.toList) (rest : OneLine t) :
      OneLine (text s ++ t) := oneLine_append (oneLine_text one) rest
  intro line mem
  simp only [figureLines, List.mem_cons, List.not_mem_nil, or_false] at mem
  rcases mem with rfl | rfl | rfl | rfl | rfl | rfl | rfl | rfl | rfl | rfl | rfl | rfl | rfl |
    rfl | rfl
  · exact oneLine_text (by decide)
  · have arrow : OneLine (text " → ") := oneLine_text (by decide)
    have start : OneLine (text "Week: " ++ d.weekStart.date ++ text " → ") :=
      oneLine_append (label (by decide) (date_oneLine d.weekStart)) arrow
    exact oneLine_append start (date_oneLine d.weekEnd)
  · exact List.not_mem_nil
  · exact label (by decide) (decimal_oneLine _)
  · exact label (by decide) (decimal_oneLine _)
  · exact label (by decide) (decimal_oneLine _)
  · exact List.not_mem_nil
  · exact label (by decide) (decimal_oneLine _)
  · exact label (by decide) (decimal_oneLine _)
  · exact label (by decide) first
  · exact label (by decide) second
  · exact label (by decide) third
  · apply label (by decide)
    split
    · exact oneLine_text (by decide)
    · exact oneLine_text (by decide)
  · exact List.not_mem_nil
  · exact oneLine_append (label (by decide) (date_oneLine _)) (oneLine_text (by decide))

theorem lines_mail {d : WeeklyDigest} {children proposals escalations : Text}
    (first : OneLine children) (second : OneLine proposals) (third : OneLine escalations) :
    linesOf (joinLines (figureLines d children proposals escalations ++ noteLines d.notes)) =
      figureLines d children proposals escalations ++ (noteLines d.notes).flatMap linesOf := by
  have some : figureLines d children proposals escalations ++ noteLines d.notes ≠ [] :=
    List.cons_ne_nil _ _
  rw [linesOf_join some, List.flatMap_append,
    flatMap_oneLine (figureLines_oneLine d first second third)]

theorem readNotes_iff (notes : List Text) :
    (((noteLines notes).flatMap linesOf).drop 2).map (behind "- ") = notes ↔
      ∀ note ∈ notes, OneLine note := by
  have bullet : OneLine (text "- ") := oneLine_text (by decide)
  by_cases none : notes = []
  · simp [noteLines, none]
  · have read : ((noteLines notes).flatMap linesOf).drop 2 =
        (notes.map (text "- " ++ ·)).flatMap linesOf := by
      rw [noteLines, if_neg none]
      rfl
    rw [read]
    constructor
    · intro same
      have lengths := congrArg List.length same
      have few : ((notes.map (text "- " ++ ·)).flatMap linesOf).length ≤
          (notes.map (text "- " ++ ·)).length := by
        rw [List.length_map] at lengths
        rw [lengths, List.length_map]
      intro note mem broken
      have one := oneLine_of_length few _ (List.mem_map_of_mem mem)
      exact one (List.mem_append_right _ broken)
    · intro one
      have each : ∀ line ∈ notes.map (text "- " ++ ·), OneLine line := by
        intro line mem
        obtain ⟨note, member, rfl⟩ := List.mem_map.mp mem
        exact oneLine_append bullet (one note member)
      rw [flatMap_oneLine each, List.map_map]
      exact (List.map_congr_left fun note _ => behind_label "- " note).trans (List.map_id notes)

section ReadBack
variable {d : WeeklyDigest} {mail : Text}

theorem count_ok {n : ℤ} {t : Text} (counted : count n = .ok t) : t = text (toString n) := by
  unfold count pythonInt at counted
  split at counted
  · cases counted
    rfl
  · cases counted

theorem render_lines (rendered : renderDigestEmail d = .ok mail) :
    linesOf mail = figureLines d (text (toString d.activeChildren))
      (text (toString d.proposalsAwaitingApproval)) (text (toString d.ethicsEscalations)) ++
        (noteLines d.notes).flatMap linesOf := by
  obtain ⟨children, first, rendered⟩ := Raising.ok_of_bind rendered
  obtain ⟨proposals, second, rendered⟩ := Raising.ok_of_bind rendered
  obtain ⟨escalations, third, rendered⟩ := Raising.ok_of_bind rendered
  cases rendered
  rw [count_ok first, count_ok second, count_ok third]
  exact lines_mail (int_oneLine _) (int_oneLine _) (int_oneLine _)

theorem read_rendered (rendered : renderDigestEmail d = .ok mail) : readFigures mail = some {
    weekStart := d.weekStart.day
    weekEnd := d.weekEnd.day
    operating := d.potBalances.operating.toRat
    reserve := d.potBalances.reserve.toRat
    growth := d.potBalances.growth.toRat
    revenue := d.revenueUsd.toRat
    cost := d.costUsd.toRat
    activeChildren := d.activeChildren
    proposalsAwaitingApproval := d.proposalsAwaitingApproval
    ethicsEscalations := d.ethicsEscalations
    frozenHashDrift := d.frozenHashDrift
    replyBy := d.humanReplyDeadline.day } := by
  have second : behind "Week: 0000-00-00 → " (text "Week: " ++ d.weekStart.date ++ text " → " ++
      d.weekEnd.date) = d.weekEnd.date := by
    apply List.drop_left'
    simp only [List.length_append, date_length]
    rfl
  have ended := readDay_date d.weekEnd []
  rw [List.append_nil] at ended
  have drift : (text (if d.frozenHashDrift then "True" else "False") == text "True") =
      d.frozenHashDrift := by
    cases d.frozenHashDrift with
    | true => rfl
    | false => rfl
  rw [readFigures, render_lines rendered]
  simp only [figureLines, List.cons_append]
  rw [second, ended]
  simp only [List.append_assoc, behind_label, readDay_date, readNumber_decimal, readNumber_int,
    drift]

theorem addDays_day {t t' : DateTime} {n : ℤ} (added : t.addDays n = .ok t') :
    (t'.day : ℤ) = t.day + n := by
  unfold DateTime.addDays at added
  split at added
  · rename_i valid
    cases added
    change ((t.day + n).toNat : ℤ) = t.day + n
    omega
  · cases added

theorem finiteField_ok {x : Decimal} {y : FiniteDecimal} (finite : finiteField x = .ok y) :
    x = .finite y := by
  cases x with
  | finite x =>
    cases finite
    rfl
  | infinity => cases finite
  | nan => cases finite

structure DigestOf (host : FreezeExperiment.Host) (tree : FreezeExperiment.Tree) (now : DateTime)
    (week : Week) (d : WeeklyDigest) : Prop where
  weekStart : d.weekStart.day = now.day - 7
  weekEnd : d.weekEnd = now
  potBalances : d.potBalances = week.potBalances
  revenue : week.revenueUsd = .finite d.revenueUsd
  cost : week.costUsd = .finite d.costUsd
  children : d.activeChildren = week.activeChildren
  proposals : d.proposalsAwaitingApproval = week.proposalsAwaitingApproval
  escalations : d.ethicsEscalations = week.ethicsEscalations
  drift : d.frozenHashDrift = false ↔ verifyExitCode host tree = .ok 0
  notes : d.notes = week.notes.getD []
  deadline : d.humanReplyDeadline.day = now.day + 14

theorem digestOf_built {host : FreezeExperiment.Host} {tree : FreezeExperiment.Tree}
    {now : DateTime} {week : Week} (built : buildWeeklyDigest host tree now week = .ok d) :
    DigestOf host tree now week d := by
  obtain ⟨weekStart, before, built⟩ := Raising.ok_of_bind built
  obtain ⟨code, verified, built⟩ := Raising.ok_of_bind built
  obtain ⟨deadline, later, built⟩ := Raising.ok_of_bind built
  obtain ⟨revenue, revenueFinite, built⟩ := Raising.ok_of_bind built
  obtain ⟨cost, costFinite, built⟩ := Raising.ok_of_bind built
  have verified := Raising.ok_of_mapError verified
  cases built
  have start := addDays_day before
  have reply := addDays_day later
  have valid := weekStart.valid
  refine ⟨?_, rfl, rfl, finiteField_ok revenueFinite, finiteField_ok costFinite, rfl, rfl, rfl,
    ?_, rfl, ?_⟩
  · change weekStart.day = now.day - 7
    omega
  · simp [verified]
  · change deadline.day = now.day + 14
    omega

/-- What the operator reads in the mail is what the digest was made of: every figure, the
    day of the digest, the days a week before and two weeks behind it, and whether the
    frozen files match their lock. The notes cannot change any of it, and are themselves
    read back exactly if none of them has a line break. -/
theorem digest_reads_back {host : FreezeExperiment.Host} {tree : FreezeExperiment.Tree}
    {now : DateTime} {week : Week} (built : buildWeeklyDigest host tree now week = .ok d)
    (rendered : renderDigestEmail d = .ok mail) :
    ∃ revenue cost drift, week.revenueUsd = .finite revenue ∧ week.costUsd = .finite cost ∧
      (drift = false ↔ verifyExitCode host tree = .ok 0) ∧
      readFigures mail = some {
        weekStart := now.day - 7
        weekEnd := now.day
        operating := week.potBalances.operating.toRat
        reserve := week.potBalances.reserve.toRat
        growth := week.potBalances.growth.toRat
        revenue := revenue.toRat
        cost := cost.toRat
        activeChildren := week.activeChildren
        proposalsAwaitingApproval := week.proposalsAwaitingApproval
        ethicsEscalations := week.ethicsEscalations
        frozenHashDrift := drift
        replyBy := now.day + 14 } ∧
      (readNotes mail = week.notes.getD [] ↔ ∀ note ∈ week.notes.getD [], OneLine note) := by
  have digest := digestOf_built built
  refine ⟨d.revenueUsd, d.costUsd, d.frozenHashDrift, digest.revenue, digest.cost, digest.drift,
    ?_, ?_⟩
  · rw [read_rendered rendered, digest.weekStart, digest.weekEnd, digest.potBalances,
      digest.children, digest.proposals, digest.escalations, digest.deadline]
  · rw [readNotes, render_lines rendered, ← digest.notes]
    exact readNotes_iff d.notes

end ReadBack

def firstDay : DateTime := ⟨739675, by decide⟩

def quietWeek : Week where
  potBalances := ⟨⟨false, 200, 0⟩, ⟨false, 0, 0⟩, ⟨false, 25, -1⟩⟩
  revenueUsd := .finite ⟨false, 30050, -2⟩
  costUsd := .finite ⟨false, 80, 0⟩
  activeChildren := 2
  proposalsAwaitingApproval := 1
  ethicsEscalations := 0
  notes := some [text "Operating: $9"]

theorem quiet_week_reads_back : ∃ d mail,
    buildWeeklyDigest freezeHost (fun _ => none) firstDay quietWeek = .ok d ∧
    renderDigestEmail d = .ok mail ∧
    ∃ revenue cost drift, quietWeek.revenueUsd = .finite revenue ∧
      quietWeek.costUsd = .finite cost ∧
      (drift = false ↔ verifyExitCode freezeHost (fun _ => none) = .ok 0) ∧
      (readFigures mail).map Figures.operating = some 200 ∧
      (readFigures mail).map Figures.frozenHashDrift = some drift ∧
      readNotes mail = quietWeek.notes.getD [] := by
  have built : ∃ d, buildWeeklyDigest freezeHost (fun _ => none) firstDay quietWeek = .ok d :=
    ⟨_, rfl⟩
  obtain ⟨d, built⟩ := built
  have rendered : ∃ mail, renderDigestEmail d = .ok mail := by
    cases built
    exact ⟨_, rfl⟩
  obtain ⟨mail, rendered⟩ := rendered
  obtain ⟨revenue, cost, drift, paid, spent, drifted, read, notes⟩ :=
    digest_reads_back built rendered
  refine ⟨d, mail, built, rendered, revenue, cost, drift, paid, spent, drifted, ?_, ?_, ?_⟩
  · rw [read]
    simp [quietWeek, FiniteDecimal.toRat, FiniteDecimal.signed]
  · rw [read]
    rfl
  · apply notes.mpr
    intro note mem
    cases List.mem_singleton.mp mem
    exact oneLine_text (by decide)

end DigestMail
