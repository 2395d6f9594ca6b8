import AgentEcosystem.Json.JsonRoundTrip
import AgentEcosystem.Text.Utf8RoundTrip
import Mathlib.Data.List.Sort

/-!
A dict of strings written one member to a line, in the order of the keys, and
that it is read back from the file it was written to.
-/
namespace JsonText
open UnicodeText

def indentedMember (m : Text × Text) : Text :=
  writeString true m.1 ++ text ": " ++ writeString true m.2

/-- `json.dumps(d, indent=2)` -/
def dumpsLines : List (Text × Text) → Text
  | [] => text "\x7b\x7d"
  | m :: ms =>
    text "\x7b\n  " ++ (text ",\n  ").intercalate ((m :: ms).map indentedMember) ++ text "\n\x7d"

def sortedMembers (members : List (Text × Text)) : List (Text × Text) :=
  members.insertionSort fun m n => m.1 ≤ n.1

/-- `json.dumps(d, indent=2, sort_keys=True)` -/
def dumpsIndented (members : List (Text × Text)) : Text := dumpsLines (sortedMembers members)

theorem perm_sortedMembers (members : List (Text × Text)) : (sortedMembers members).Perm members :=
  List.perm_insertionSort _ members

def strMember (m : Text × Text) : Text × Json := (m.1, .str m.2)

def Printable (t : Text) : Prop := ∀ c ∈ t, 0x20 ≤ c.val ∧ c.val < 0x7F

theorem printable_of_all {t : Text}
    (all : (t.all fun c => 0x20 ≤ c.val && c.val < 0x7F) = true) : Printable t := by
  intro c mem
  simpa using List.all_eq_true.mp all c mem

theorem writeChar_printable {c : CodePoint} (range : 0x20 ≤ c.val ∧ c.val < 0x7F) :
    writeChar true c = writeChar false c := by
  have low : ¬ c.val < 0x20 := by omega
  have high : ¬ 0x7F ≤ c.val := by omega
  simp [writeChar, low, high]

theorem writeString_printable {s : Text} (printable : Printable s) :
    writeString true s = writeString false s := by
  have chars : s.flatMap (writeChar true) = s.flatMap (writeChar false) := by
    apply List.flatMap_congr
    intro c mem
    exact writeChar_printable (printable c mem)
  rw [writeString, writeString, chars]

theorem printable_append {s t : Text} (hs : Printable s) (ht : Printable t) :
    Printable (s ++ t) :=
  List.forall_mem_append.mpr ⟨hs, ht⟩

theorem printable_writeChar {c : CodePoint} (range : 0x20 ≤ c.val ∧ c.val < 0x7F) :
    Printable (writeChar true c) := by
  have letters : ∀ pair ∈ shortEscapes, Printable [ofChar '\\', ofChar pair.1] := by
    simp only [Printable, List.forall_mem_cons, List.not_mem_nil, false_implies, implies_true,
      and_true]
    decide
  unfold writeChar
  split
  · next escaped found =>
    obtain ⟨pair, mem, _, _, rfl⟩ := shortEscape_some found
    exact letters pair mem
  · have low : ¬ c.val < 0x20 := by omega
    have high : ¬ 0x7F ≤ c.val := by omega
    simpa [low, high, Printable] using range

theorem printable_writeString {s : Text} (printable : Printable s) :
    Printable (writeString true s) := by
  have quote : Printable [ofChar '"'] := printable_of_all (by decide)
  apply printable_append (printable_append quote _) quote
  intro c mem
  obtain ⟨d, inside, written⟩ := List.mem_flatMap.mp mem
  exact printable_writeChar (printable d inside) c written

def PrintableMembers (members : List (Text × Text)) : Prop :=
  ∀ m ∈ members, Printable m.1 ∧ Printable m.2

theorem skipBlanks_quote (cs : Text) : skipBlanks (ofChar '"' :: cs) = ofChar '"' :: cs :=
  skipBlanks_cons cs (by decide)

theorem writeString_quote (ensureAscii : Bool) (s : Text) :
    ∃ cs, writeString ensureAscii s = ofChar '"' :: cs :=
  ⟨s.flatMap (writeChar ensureAscii) ++ [ofChar '"'], by simp [writeString]⟩

def memberLines (ms : List (Text × Text)) : Text :=
  (text ",\n  ").intercalate (ms.map indentedMember)

theorem memberLines_cons (m n : Text × Text) (ms : List (Text × Text)) :
    memberLines (m :: n :: ms) =
      indentedMember m ++ (ofChar ',' :: (text "\n  " ++ memberLines (n :: ms))) := by
  simp [memberLines, text]

theorem memberLines_quote (m : Text × Text) (ms : List (Text × Text)) :
    ∃ cs, memberLines (m :: ms) = ofChar '"' :: cs := by
  obtain ⟨cs, quote⟩ := writeString_quote true m.1
  cases ms with
  | nil => exact ⟨_, by simp [memberLines, indentedMember, quote]; rfl⟩
  | cons n ms => exact ⟨_, by rw [memberLines_cons, indentedMember, quote]; rfl⟩

theorem skipBlanks_lines (m : Text × Text) (ms : List (Text × Text)) (rest : Text) :
    skipBlanks (text "\n  " ++ (memberLines (m :: ms) ++ rest)) = memberLines (m :: ms) ++ rest := by
  obtain ⟨cs, quote⟩ := memberLines_quote m ms
  rw [quote, List.cons_append]
  exact skipBlanks_quote (cs ++ rest)

theorem readMembers_indented {maxDigits fuel depth : ℕ} {done : List (Text × Json)}
    {m : Text × Text} (printable : Printable m.1 ∧ Printable m.2)
    (fresh : m.1 ∉ done.map Prod.fst) (enough : (indentedMember m).length ≤ fuel) (rest : Text) :
    readMembers maxDigits (fuel + 1) depth done (indentedMember m ++ rest) =
      match skipBlanks rest with
      | [] => .error .decode
      | c :: rest =>
        if c = ofChar '}' then .ok (.obj (done ++ [strMember m]), rest)
        else if c = ofChar ',' then
          readMembers maxDigits fuel depth (done ++ [strMember m]) (skipBlanks rest)
        else .error .decode := by
  have shape : indentedMember m =
      writeString false m.1 ++ ofChar ':' :: ofChar ' ' :: writeString false m.2 := by
    simp [indentedMember, writeString_printable printable.1, writeString_printable printable.2,
      text]
  have longKey := writeString_enough m.1
  have longValue := writeString_enough m.2
  rw [shape] at enough ⊢
  simp only [List.length_append, List.length_cons] at enough
  obtain ⟨cs, quote⟩ := writeString_quote false m.2
  obtain ⟨fuel, rfl⟩ : ∃ k, fuel = k + 1 := ⟨fuel - 1, by omega⟩
  have blank : skipBlanks (ofChar ' ' :: (writeString false m.2 ++ rest)) =
      writeString false m.2 ++ rest := by
    rw [quote, List.cons_append]
    exact skipBlanks_quote (cs ++ rest)
  have value : readValue maxDigits (fuel + 1) depth
      (skipBlanks (ofChar ' ' :: (writeString false m.2 ++ rest))) = .ok (.str m.2, rest) := by
    rw [blank]
    exact readValue_string maxDigits depth m.2 rest (by omega)
  rw [List.append_assoc, List.cons_append, List.cons_append]
  exact readMembers_key (by omega) fresh value

theorem fresh_member {done : List (Text × Json)} {m : Text × Text} {ms : List (Text × Text)}
    (distinct : ((done ++ (m :: ms).map strMember).map Prod.fst).Nodup) :
    m.1 ∉ done.map Prod.fst := by
  rw [List.map_append, List.map_cons, List.map_cons] at distinct
  intro mem
  exact (List.nodup_append.mp distinct).2.2 _ mem _ List.mem_cons_self rfl

theorem readMembers_lines {maxDigits fuel depth : ℕ} (m : Text × Text) (ms : List (Text × Text))
    (printable : PrintableMembers (m :: ms)) (done : List (Text × Json))
    (distinct : ((done ++ (m :: ms).map strMember).map Prod.fst).Nodup) (rest : Text)
    (enough : (memberLines (m :: ms)).length < fuel) :
    readMembers maxDigits fuel depth done (memberLines (m :: ms) ++ (text "\n\x7d" ++ rest)) =
      .ok (.obj (done ++ (m :: ms).map strMember), rest) := by
  induction ms generalizing m done fuel with
  | nil =>
    have fresh := fresh_member distinct
    have line : memberLines [m] = indentedMember m := by simp [memberLines]
    rw [line] at enough ⊢
    obtain ⟨fuel, rfl⟩ : ∃ k, fuel = k + 1 := ⟨fuel - 1, by omega⟩
    rw [readMembers_indented (printable m List.mem_cons_self) fresh (by omega)]
    rfl
  | cons n ms ih =>
    have fresh := fresh_member distinct
    rw [memberLines_cons, List.length_append, List.length_cons, List.length_append] at enough
    obtain ⟨fuel, rfl⟩ : ∃ k, fuel = k + 1 := ⟨fuel - 1, by omega⟩
    have later : readMembers maxDigits fuel depth _ _ = _ :=
      ih n (fun k mem => printable k (List.mem_cons_of_mem m mem)) (done ++ [strMember m])
        (by simpa using distinct) (by omega)
    rw [memberLines_cons, List.append_assoc, List.cons_append,
      readMembers_indented (printable m List.mem_cons_self) fresh (by omega)]
    have comma : ∀ cs, skipBlanks (ofChar ',' :: cs) = ofChar ',' :: cs :=
      fun cs => skipBlanks_cons cs (by decide)
    have mark : ofChar ',' ≠ ofChar '}' := by decide
    rw [comma, List.append_assoc]
    simp only [mark, if_false, if_true, skipBlanks_lines, later]
    simp

theorem nodup_strMember {members : List (Text × Text)} (distinct : (members.map Prod.fst).Nodup) :
    ((members.map strMember).map Prod.fst).Nodup := by
  have keys : (members.map strMember).map Prod.fst = members.map Prod.fst := by
    simp [strMember, Function.comp_def]
  rwa [keys]

theorem loads_lines {members : List (Text × Text)} (distinct : (members.map Prod.fst).Nodup)
    (printable : PrintableMembers members) {maxDepth : ℕ} (deep : 0 < maxDepth) :
    loads maxDepth (dumpsLines members ++ text "\n") = .ok (.obj (members.map strMember)) := by
  obtain ⟨depth, rfl⟩ : ∃ k, maxDepth = k + 1 := ⟨maxDepth - 1, by omega⟩
  cases members with
  | nil => rfl
  | cons m ms =>
    have shape : dumpsLines (m :: ms) ++ text "\n" = ofChar '{' :: (text "\n  " ++
        (memberLines (m :: ms) ++ (text "\n\x7d" ++ text "\n"))) := by
      simp [dumpsLines, memberLines, text]
    have size : (dumpsLines (m :: ms) ++ text "\n").length =
        (memberLines (m :: ms)).length + 7 := by
      rw [shape]
      simp [text]
    have brace : skipBlanks (dumpsLines (m :: ms) ++ text "\n") =
        dumpsLines (m :: ms) ++ text "\n" := by
      rw [shape]
      exact skipBlanks_cons _ (by decide)
    have read : readMembers maxStrDigits ((memberLines (m :: ms)).length + 7) depth [] _ = _ :=
      readMembers_lines m ms printable [] (by simpa using nodup_strMember distinct) (text "\n")
        (by omega)
    obtain ⟨cs, quote⟩ := memberLines_quote m ms
    have skipped := skipBlanks_lines m ms (text "\n\x7d" ++ text "\n")
    rw [loads, loadsWithin, brace, size, shape]
    rw [quote, List.cons_append] at skipped read ⊢
    rw [readValue_brace skipped, read]
    rfl

/-- A dict that was written indented is read back, in the order of its keys. -/
theorem loads_dumpsIndented {members : List (Text × Text)}
    (distinct : (members.map Prod.fst).Nodup) (printable : PrintableMembers members) {maxDepth : ℕ}
    (deep : 0 < maxDepth) :
    loads maxDepth (dumpsIndented members ++ text "\n") =
      .ok (.obj ((sortedMembers members).map strMember)) := by
  have perm := perm_sortedMembers members
  apply loads_lines _ _ deep
  · exact (perm.map Prod.fst).nodup_iff.mpr distinct
  · intro m mem
    exact printable m (perm.mem_iff.mp mem)

def PrintableLines (t : Text) : Prop :=
  ∀ c ∈ t, (0x20 ≤ c.val ∧ c.val < 0x7F) ∨ c = ofChar '\n'

theorem printableLines_of_all {t : Text}
    (all : (t.all fun c => (0x20 ≤ c.val && c.val < 0x7F) || c == ofChar '\n') = true) :
    PrintableLines t := by
  intro c mem
  simpa using List.all_eq_true.mp all c mem

theorem printableLines_append {s t : Text} (hs : PrintableLines s) (ht : PrintableLines t) :
    PrintableLines (s ++ t) :=
  List.forall_mem_append.mpr ⟨hs, ht⟩

theorem Printable.lines {t : Text} (printable : Printable t) : PrintableLines t :=
  fun c mem => .inl (printable c mem)

theorem printableLines_members {ms : List (Text × Text)} (printable : PrintableMembers ms) :
    PrintableLines (memberLines ms) := by
  have colon : PrintableLines (text ": ") := printableLines_of_all (by decide)
  have comma : PrintableLines (ofChar ',' :: text "\n  ") := printableLines_of_all (by decide)
  have member : ∀ m ∈ ms, PrintableLines (indentedMember m) := by
    intro m mem
    have key := (printable_writeString (printable m mem).1).lines
    have value := (printable_writeString (printable m mem).2).lines
    exact printableLines_append (printableLines_append key colon) value
  induction ms with
  | nil => simp [memberLines, PrintableLines]
  | cons m ms ih =>
    have first := member m List.mem_cons_self
    have later := ih (fun n mem => printable n (List.mem_cons_of_mem m mem))
      fun n mem => member n (List.mem_cons_of_mem m mem)
    cases ms with
    | nil => simpa [memberLines] using first
    | cons n ms =>
      rw [memberLines_cons, ← List.cons_append]
      exact printableLines_append first (printableLines_append comma later)

theorem printableLines_document {members : List (Text × Text)}
    (printable : PrintableMembers members) :
    PrintableLines (dumpsIndented members ++ text "\n") := by
  have left : PrintableLines (text "\x7b\n  ") := printableLines_of_all (by decide)
  have right : PrintableLines (text "\n\x7d" ++ text "\n") := printableLines_of_all (by decide)
  have empty : PrintableLines (text "\x7b\x7d" ++ text "\n") := printableLines_of_all (by decide)
  have sorted : PrintableMembers (sortedMembers members) := fun m mem =>
    printable m ((perm_sortedMembers members).mem_iff.mp mem)
  unfold dumpsIndented
  cases order : sortedMembers members with
  | nil => exact empty
  | cons m ms =>
    rw [order] at sorted
    rw [dumpsLines, List.append_assoc]
    exact printableLines_append (printableLines_append left (printableLines_members sorted)) right

theorem read_of_written {t : Text} (lines : PrintableLines t) :
    encode t = some (t.flatMap encodeChar) ∧
      (decodeStrict (t.flatMap encodeChar)).map universalNewlines = some t := by
  have newline : (ofChar '\n').val = 0x0A := by decide
  have small : ∀ c ∈ t, c.val < 0x80 ∧ c.val ≠ 0x0D := by
    intro c mem
    rcases lines c mem with printable | rfl
    · omega
    · omega
  have chars : Characters t := characters_of_ascii fun c mem => (small c mem).1
  constructor
  · exact encode_of_characters chars
  · rw [decodeStrict_encoded chars, Option.map_some,
      universalNewlines_eq fun c mem => (small c mem).2]

end JsonText
