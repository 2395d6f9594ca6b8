import AgentEcosystem.Json.JsonText
import Mathlib.Data.List.Forall2

/-!
What is written is read back. `Reads t j` says that the reader takes the text
`t` for the value `j` whatever delimiter follows; the rules build it up from
the texts of the parts. A limit as large as the text is never reached.
-/
namespace JsonText
open UnicodeText

theorem hexValue_hexDigit {d : ℕ} (h : d < 16) : hexValue (hexDigit d) = some d := by
  have all : ∀ d : Fin 16, hexValue (hexDigit d) = some d.val := by decide
  exact all ⟨d, h⟩

theorem readHex_digits {n : ℕ} (small : n < 0x10000) (rest : Text) :
    readHex ([hexDigit (n / 4096 % 16), hexDigit (n / 256 % 16), hexDigit (n / 16 % 16),
      hexDigit (n % 16)] ++ rest) = .ok (n, rest) := by
  have digit : ∀ k, hexValue (hexDigit (k % 16)) = some (k % 16) := fun k =>
    hexValue_hexDigit (Nat.mod_lt k (by decide))
  simp only [List.cons_append, List.nil_append, readHex, digit]
  congr 2
  omega

theorem shortEscape_some {c : CodePoint} {escaped : Text} (h : shortEscape c = some escaped) :
    ∃ pair ∈ shortEscapes, ofChar pair.2 = c ∧ c ≠ ofChar '/' ∧
      escaped = [ofChar '\\', ofChar pair.1] := by
  unfold shortEscape at h
  split at h
  · cases h
  · rename_i notSlash
    obtain ⟨pair, found, rfl⟩ := Option.map_eq_some_iff.mp h
    exact ⟨pair, List.mem_of_find?_eq_some found, by simpa using List.find?_some found, notSlash, rfl⟩

theorem shortEscape_none {c : CodePoint} (h : shortEscape c = none) :
    c ≠ ofChar '"' ∧ c ≠ ofChar '\\' := by
  constructor
  · intro quote
    rw [quote] at h
    exact absurd h (by decide)
  · intro backslash
    rw [backslash] at h
    exact absurd h (by decide)

theorem readUnit_escaped (cs : Text) :
    readUnit (ofChar '\\' :: ofChar 'u' :: cs) =
      (readUnicodeEscape cs).map fun (u, rest) => (some u, rest) := rfl

theorem readUnit_writeChar (c : CodePoint) (rest : Text) :
    readUnit (writeChar false c ++ rest) = .ok (some c, rest) := by
  unfold writeChar
  split
  · rename_i escaped found
    obtain ⟨pair, mem, rfl, notSlash, rfl⟩ := shortEscape_some found
    simp only [shortEscapes, List.mem_cons, List.not_mem_nil, or_false] at mem
    rcases mem with rfl | rfl | rfl | rfl | rfl | rfl | rfl | rfl
    case inr.inr.inl => exact absurd rfl notSlash
    all_goals rfl
  · rename_i plain
    obtain ⟨notQuote, notBackslash⟩ := shortEscape_none plain
    by_cases control : c.val < 0x20
    · rw [if_pos control]
      have same : Fin.ofNat 0x110000 c.val = c := by
        apply Fin.ext
        exact Nat.mod_eq_of_lt c.isLt
      have read : readUnicodeEscape ([hexDigit (c.val / 4096 % 16), hexDigit (c.val / 256 % 16),
          hexDigit (c.val / 16 % 16), hexDigit (c.val % 16)] ++ rest) = .ok (c, rest) := by
        unfold readUnicodeEscape
        rw [readHex_digits (by omega)]
        have low : ¬ (0xD800 ≤ c.val ∧ c.val < 0xDC00) := by omega
        simp only [bind, Except.bind, low, if_false, same]
        rfl
      have shape : unicodeEscape c.val ++ rest = ofChar '\\' :: ofChar 'u' ::
          ([hexDigit (c.val / 4096 % 16), hexDigit (c.val / 256 % 16), hexDigit (c.val / 16 % 16),
            hexDigit (c.val % 16)] ++ rest) := rfl
      rw [shape, readUnit_escaped, read]
      rfl
    · rw [if_neg control]
      simp only [Bool.false_and, Bool.false_eq_true, if_false, List.singleton_append, readUnit,
        notQuote, control, notBackslash]

theorem writeChar_length (c : CodePoint) : 1 ≤ (writeChar false c).length := by
  by_contra empty
  have nothing : writeChar false c = [] := List.eq_nil_of_length_eq_zero (by omega)
  have read := readUnit_writeChar c []
  rw [nothing] at read
  cases read

theorem length_le_written (s : Text) : s.length ≤ (s.flatMap (writeChar false)).length := by
  induction s with
  | nil => simp
  | cons c s ih =>
    have one := writeChar_length c
    simp only [List.flatMap_cons, List.length_append, List.length_cons]
    omega

theorem readString_written (s rest : Text) {fuel : ℕ} (enough : s.length < fuel) :
    readString fuel (s.flatMap (writeChar false) ++ ofChar '"' :: rest) = .ok (s, rest) := by
  induction s generalizing fuel with
  | nil =>
    cases fuel with
    | zero => cases enough
    | succ fuel => rfl
  | cons c s ih =>
    cases fuel with
    | zero => cases enough
    | succ fuel =>
      have later : readString fuel _ = _ := ih (by simpa using enough)
      rw [List.flatMap_cons, List.append_assoc, readString, readUnit_writeChar]
      simp only [bind, Except.bind, later]
      rfl

def digitText (n : ℕ) : Text := (Nat.toDigits 10 n).map ofChar

theorem digitText_digits (n : ℕ) : ∀ c ∈ digitText n, isAsciiDigit c = true := by
  intro c mem
  obtain ⟨d, digit, rfl⟩ := List.mem_map.mp mem
  have range := Nat.isDigit_of_mem_toDigits (by decide) (by decide) digit
  simp only [Char.isDigit, Bool.and_eq_true, decide_eq_true_eq] at range
  simp only [isAsciiDigit, Bool.and_eq_true, decide_eq_true_eq, ofChar_val]
  exact ⟨range.1, range.2⟩

/- No number but zero starts with a zero. -/
theorem digitText_lead {n : ℕ} (pos : 0 < n) :
    ∃ first more, digitText n = first :: more ∧ first ≠ ofChar '0' := by
  induction n using Nat.strong_induction_on with
  | _ n ih =>
    rcases Nat.lt_or_ge n 10 with small | large
    · refine ⟨ofChar n.digitChar, [], ?_, ?_⟩
      · rw [digitText, Nat.toDigits_of_lt_base small]
        rfl
      · intro zero
        have digit := ofChar_injective zero
        rw [Nat.digitChar_eq_zero] at digit
        omega
    · obtain ⟨first, more, shape, lead⟩ := ih (n / 10) (by omega) (by omega)
      refine ⟨first, more ++ [ofChar (n % 10).digitChar], ?_, lead⟩
      rw [digitText, Nat.toDigits_of_base_le (by decide) large, List.map_append]
      change digitText (n / 10) ++ _ = _
      rw [shape]
      rfl

theorem ofDigits_digitText (n : ℕ) : ofDigits ((digitText n).map digitValue) = n := by
  have step : ∀ (ds : List Char) (m : ℕ), (∀ c ∈ ds, isAsciiDigit (ofChar c) = true) →
      ((ds.map ofChar).map digitValue).foldl (fun n d => 10 * n + d.val) m =
        Nat.ofDigitChars 10 ds m := by
    intro ds
    induction ds with
    | nil => simp
    | cons c ds ih =>
      intro m digits
      have range := digits c List.mem_cons_self
      simp only [isAsciiDigit, Bool.and_eq_true, decide_eq_true_eq, ofChar_val] at range
      have value : (digitValue (ofChar c)).val = c.toNat - '0'.toNat := by
        change ((ofChar c).val - 0x30) % 10 = c.toNat - 48
        rw [ofChar_val]
        omega
      rw [List.map_cons, List.map_cons, List.foldl_cons, value, Nat.ofDigitChars_cons]
      exact ih _ fun d mem => digits d (List.mem_cons_of_mem c mem)
  have all : ∀ c ∈ Nat.toDigits 10 n, isAsciiDigit (ofChar c) = true := fun c mem =>
    digitText_digits n (ofChar c) (List.mem_map_of_mem mem)
  exact (step (Nat.toDigits 10 n) 0 all).trans Nat.ofDigitChars_ten_toDigits

/-- Nothing follows that would still belong to a number. -/
def Delimited (rest : Text) : Prop :=
  ∀ c ∈ rest.head?, isAsciiDigit c = false ∧ c ≠ ofChar '.' ∧ c ≠ ofChar 'e' ∧ c ≠ ofChar 'E'

theorem span_digits {ds rest : Text} (digits : ∀ c ∈ ds, isAsciiDigit c = true)
    (delimited : Delimited rest) : (ds ++ rest).span isAsciiDigit = (ds, rest) := by
  apply span_before digits
  intro c head
  exact (delimited c head).1

theorem readFraction_delimited {rest : Text} (delimited : Delimited rest) :
    readFraction rest = ([], rest) := by
  cases rest with
  | nil => rfl
  | cons c rest =>
    have notPoint := (delimited c rfl).2.1
    simp only [readFraction, notPoint, false_and, if_false]

theorem readExponent_delimited {rest : Text} (delimited : Delimited rest) :
    readExponent rest = ([], rest) := by
  cases rest with
  | nil => rfl
  | cons c rest =>
    obtain ⟨_, _, lower, upper⟩ := delimited c rfl
    simp only [readExponent, lower, upper, or_self, false_and, if_false]

theorem readNumber_digits {n maxDigits : ℕ} {cs rest : Text} (negative : Bool)
    (sign : (cs.head? == some (ofChar '-')) = negative)
    (unsigned : (if negative then cs.tail else cs) = digitText n ++ rest)
    (delimited : Delimited rest) (short : (digitText n).length ≤ maxDigits) :
    readNumber maxDigits cs = .ok (.int (if negative then -n else n), rest) := by
  unfold readNumber
  rw [sign]
  dsimp only
  rw [unsigned, span_digits (digitText_digits n) delimited]
  rcases Nat.eq_zero_or_pos n with rfl | pos
  · have zero : digitText 0 = [ofChar '0'] := rfl
    rw [zero] at short ⊢
    simp only [if_true, List.nil_append, readFraction_delimited delimited,
      readExponent_delimited delimited, and_self, short]
    rfl
  · obtain ⟨first, more, shape, lead⟩ := digitText_lead pos
    have value := ofDigits_digitText n
    rw [shape] at short value ⊢
    simp only [lead, if_false, readFraction_delimited delimited,
      readExponent_delimited delimited, and_self, if_true, short, value]

theorem digit_ne_ofChar {c : CodePoint} {d : Char} (digit : isAsciiDigit c = true)
    (other : isAsciiDigit (ofChar d) = false) : c ≠ ofChar d := by
  intro same
  rw [same, other] at digit
  cases digit

theorem readWord_digit {c : CodePoint} (cs : Text) (digit : isAsciiDigit c = true) :
    readWord (c :: cs) = none := by
  have differs : ∀ d : Char, isAsciiDigit (ofChar d) = false → ofChar d ≠ c :=
    fun d other => (digit_ne_ofChar digit other).symm
  have n := differs 'n' (by decide)
  have t := differs 't' (by decide)
  have f := differs 'f' (by decide)
  have upper := differs 'N' (by decide)
  have i := differs 'I' (by decide)
  have minus := differs '-' (by decide)
  simp [readWord, wordValues, afterWord, text, n, t, f, upper, i, minus]

theorem readWord_minus {c : CodePoint} (cs : Text) (digit : isAsciiDigit c = true) :
    readWord (ofChar '-' :: c :: cs) = none := by
  have i : ofChar 'I' ≠ c := (digit_ne_ofChar digit (by decide)).symm
  have n : ofChar 'n' ≠ ofChar '-' := by decide
  have t : ofChar 't' ≠ ofChar '-' := by decide
  have f : ofChar 'f' ≠ ofChar '-' := by decide
  have upper : ofChar 'N' ≠ ofChar '-' := by decide
  have first : ofChar 'I' ≠ ofChar '-' := by decide
  simp [readWord, wordValues, afterWord, text, i, n, t, f, upper, first]

theorem text_toString (n : ℤ) :
    text (toString n) = if n < 0 then ofChar '-' :: digitText n.natAbs else digitText n.natAbs := by
  cases n with
  | ofNat m =>
    have shown : toString (Int.ofNat m) = Nat.repr m := rfl
    have nonneg : ¬ Int.ofNat m < 0 := Int.not_lt.mpr (Int.natCast_nonneg m)
    rw [shown, text, Nat.toList_repr, if_neg nonneg]
    rfl
  | negSucc m =>
    have shown : toString (Int.negSucc m) = "-" ++ Nat.repr (m + 1) := rfl
    rw [shown, text, String.toList_append, Nat.toList_repr, if_pos (Int.negSucc_lt_zero m)]
    rfl

instance someJson : Inhabited Json := ⟨.null⟩

/-- The reader takes the text for the value, whatever delimiter follows. -/
structure Reads (t : Text) (j : Json) : Prop where
  starts : ∃ c cs, t = c :: cs ∧ isBlank c = false ∧ c ≠ ofChar ']' ∧ c ≠ ofChar '}'
  reads : ∀ {maxDigits fuel depth : ℕ} {rest : Text}, t.length ≤ maxDigits → t.length ≤ fuel →
    t.length ≤ depth → Delimited rest →
    readValue maxDigits fuel depth (t ++ rest) = .ok (j, rest)

theorem readValue_plain {maxDigits fuel depth : ℕ} {c : CodePoint} {cs : Text}
    (quote : c ≠ ofChar '"') (brace : c ≠ ofChar '{') (bracket : c ≠ ofChar '[') :
    readValue maxDigits (fuel + 1) depth (c :: cs) =
      match readWord (c :: cs) with
      | some found => .ok found
      | none => readNumber maxDigits (c :: cs) := by
  rw [readValue.eq_def]
  exact (if_neg quote).trans ((if_neg brace).trans (if_neg bracket))

theorem delimited_mark (mark : Char) (rest : Text)
    (h : isAsciiDigit (ofChar mark) = false ∧ ofChar mark ≠ ofChar '.' ∧
      ofChar mark ≠ ofChar 'e' ∧ ofChar mark ≠ ofChar 'E') : Delimited (ofChar mark :: rest) := by
  intro c head
  simp only [List.head?_cons, Option.mem_def, Option.some.injEq] at head
  simpa [← head] using h

theorem skipBlanks_cons {c : CodePoint} (cs : Text) (h : isBlank c = false) :
    skipBlanks (c :: cs) = c :: cs := by
  simp [skipBlanks, h]

theorem Reads.skipBlanks {t : Text} {j : Json} (h : Reads t j) (rest : Text) :
    skipBlanks (t ++ rest) = t ++ rest := by
  obtain ⟨c, cs, rfl, blank, _⟩ := h.starts
  exact skipBlanks_cons (cs ++ rest) blank

theorem reads_word {t : Text} {j : Json} {c : Char} (first : t.head? = some (ofChar c))
    (letter : c ∈ ['n', 't', 'f']) (word : ∀ rest, readWord (t ++ rest) = some (j, rest)) :
    Reads t j := by
  obtain ⟨cs, rfl⟩ : ∃ cs, t = ofChar c :: cs := by
    cases t with
    | nil => cases first
    | cons d cs =>
      simp only [List.head?_cons, Option.some.injEq] at first
      exact ⟨cs, by rw [first]⟩
  have marks : ∀ d ∈ ['n', 't', 'f'], isBlank (ofChar d) = false ∧ ofChar d ≠ ofChar ']' ∧
      ofChar d ≠ ofChar '}' ∧ ofChar d ≠ ofChar '"' ∧ ofChar d ≠ ofChar '{' ∧
      ofChar d ≠ ofChar '[' := by
    simp only [List.forall_mem_cons, List.not_mem_nil, false_implies, implies_true, and_true]
    decide
  obtain ⟨blank, bracket, brace, quote, opening, opening'⟩ := marks c letter
  refine ⟨⟨ofChar c, cs, rfl, blank, bracket, brace⟩, ?_⟩
  intro maxDigits fuel depth rest _ fueled _ _
  cases fuel with
  | zero => simp at fueled
  | succ fuel =>
    rw [List.cons_append, readValue_plain quote opening opening', ← List.cons_append, word rest]

theorem reads_null : Reads (text "null") .null :=
  reads_word (c := 'n') rfl (by simp) fun _ => rfl

theorem reads_bool (b : Bool) : Reads (text (if b then "true" else "false")) (.bool b) := by
  cases b with
  | true => exact reads_word (c := 't') rfl (by simp) fun _ => rfl
  | false => exact reads_word (c := 'f') rfl (by simp) fun _ => rfl

theorem digit_plain {c : CodePoint} (digit : isAsciiDigit c = true) :
    isBlank c = false ∧ c ≠ ofChar ']' ∧ c ≠ ofChar '}' ∧ c ≠ ofChar '"' ∧ c ≠ ofChar '{' ∧
      c ≠ ofChar '[' ∧ c ≠ ofChar '-' := by
  have differs : ∀ d : Char, isAsciiDigit (ofChar d) = false → c ≠ ofChar d :=
    fun d other => digit_ne_ofChar digit other
  refine ⟨?_, differs _ (by decide), differs _ (by decide), differs _ (by decide),
    differs _ (by decide), differs _ (by decide), differs _ (by decide)⟩
  have space := differs ' ' (by decide)
  have tab := differs '\t' (by decide)
  have newline := differs '\n' (by decide)
  have feed := differs '\r' (by decide)
  simp [isBlank, space, tab, newline, feed]

theorem reads_int (n : ℤ) : Reads (text (toString n)) (.int n) := by
  obtain ⟨first, more, shape⟩ : ∃ first more, digitText n.natAbs = first :: more := by
    cases pos : n.natAbs with
    | zero => exact ⟨_, _, rfl⟩
    | succ m =>
      obtain ⟨first, more, shape, _⟩ := digitText_lead (Nat.succ_pos m)
      exact ⟨first, more, shape⟩
  have digit : isAsciiDigit first = true :=
    digitText_digits n.natAbs first (by rw [shape]; exact List.mem_cons_self)
  obtain ⟨blank, bracket, brace, quote, opening, opening', minus⟩ := digit_plain digit
  rw [text_toString]
  by_cases negative : n < 0
  · rw [if_pos negative]
    refine ⟨⟨_, _, rfl, by decide, by decide, by decide⟩, ?_⟩
    intro maxDigits fuel depth rest short fueled _ delimited
    cases fuel with
    | zero => simp at fueled
    | succ fuel =>
      have noWord : readWord (ofChar '-' :: (digitText n.natAbs ++ rest)) = none := by
        rw [shape]
        exact readWord_minus (more ++ rest) digit
      have digits : (digitText n.natAbs).length ≤ maxDigits := by
        simp only [List.length_cons] at short
        omega
      have number : readNumber maxDigits (ofChar '-' :: (digitText n.natAbs ++ rest)) = _ :=
        readNumber_digits true rfl rfl delimited digits
      have value : (if true then -(n.natAbs : ℤ) else n.natAbs) = n := by
        simp only [if_true]
        omega
      rw [List.cons_append, readValue_plain (by decide) (by decide) (by decide), noWord]
      rw [value] at number
      exact number
  · rw [if_neg negative]
    refine ⟨⟨first, more, shape, blank, bracket, brace⟩, ?_⟩
    intro maxDigits fuel depth rest short fueled _ delimited
    cases fuel with
    | zero =>
      rw [shape] at fueled
      simp at fueled
    | succ fuel =>
      have unsigned : ((digitText n.natAbs ++ rest).head? == some (ofChar '-')) = false := by
        simp [shape, minus]
      have number := readNumber_digits (n := n.natAbs) false unsigned rfl delimited short
      have value : (if false then -(n.natAbs : ℤ) else n.natAbs) = n := by
        simp only [Bool.false_eq_true, if_false]
        omega
      have noWord : readWord (digitText n.natAbs ++ rest) = none := by
        rw [shape]
        exact readWord_digit (more ++ rest) digit
      rw [value] at number
      rw [shape] at noWord number ⊢
      rw [List.cons_append] at noWord number ⊢
      rw [readValue_plain quote opening opening', noWord]
      exact number

theorem writeString_shape (s rest : Text) : writeString false s ++ rest =
    ofChar '"' :: (s.flatMap (writeChar false) ++ ofChar '"' :: rest) := by
  simp [writeString]

theorem writeString_enough (s : Text) : s.length + 2 ≤ (writeString false s).length := by
  have written := length_le_written s
  simp only [writeString, List.length_append, List.length_singleton]
  omega

theorem readValue_string (maxDigits depth : ℕ) (s rest : Text) {fuel : ℕ}
    (enough : s.length ≤ fuel) :
    readValue maxDigits (fuel + 1) depth (writeString false s ++ rest) = .ok (.str s, rest) := by
  have read : readString (fuel + 1) _ = _ := readString_written s rest (Nat.lt_succ_of_le enough)
  rw [writeString_shape, readValue.eq_def]
  simp only [if_true, read]
  rfl

theorem reads_string (s : Text) : Reads (writeString false s) (.str s) := by
  refine ⟨⟨ofChar '"', s.flatMap (writeChar false) ++ [ofChar '"'], by simp [writeString],
    by decide, by decide, by decide⟩, ?_⟩
  intro maxDigits fuel depth rest _ fueled _ _
  have long := writeString_enough s
  cases fuel with
  | zero => omega
  | succ fuel => exact readValue_string maxDigits depth s rest (by omega)

theorem joinComma_cons (t u : Text) (ts : List Text) :
    joinComma (t :: u :: ts) = t ++ ofChar ',' :: joinComma (u :: ts) := by
  simp [joinComma, text]

theorem joinComma_cons_length (t u : Text) (ts : List Text) :
    (joinComma (t :: u :: ts)).length = t.length + (joinComma (u :: ts)).length + 1 := by
  rw [joinComma_cons, List.length_append, List.length_cons]
  omega

theorem delimited_bracket (rest : Text) : Delimited (ofChar ']' :: rest) :=
  delimited_mark ']' rest (by decide)

theorem delimited_brace (rest : Text) : Delimited (ofChar '}' :: rest) :=
  delimited_mark '}' rest (by decide)

theorem delimited_comma (rest : Text) : Delimited (ofChar ',' :: rest) :=
  delimited_mark ',' rest (by decide)

theorem readElements_comma {maxDigits fuel depth : ℕ} {done : List Json} {cs rest : Text} {v : Json}
    (read : readValue maxDigits fuel depth cs = .ok (v, ofChar ',' :: rest)) :
    readElements maxDigits (fuel + 1) depth done cs =
      readElements maxDigits fuel depth (done ++ [v]) (skipBlanks rest) := by
  rw [readElements, read]
  rfl

theorem readElements_end {maxDigits fuel depth : ℕ} {done : List Json} {cs rest : Text} {v : Json}
    (read : readValue maxDigits fuel depth cs = .ok (v, ofChar ']' :: rest)) :
    readElements maxDigits (fuel + 1) depth done cs = .ok (.arr (done ++ [v]), rest) := by
  rw [readElements, read]
  rfl

theorem joinComma_first (c : CodePoint) (cs : Text) (ts : List Text) :
    ∃ more, joinComma ((c :: cs) :: ts) = c :: more := by
  cases ts with
  | nil => exact ⟨cs, rfl⟩
  | cons u ts => exact ⟨cs ++ ofChar ',' :: joinComma (u :: ts), by simp [joinComma_cons]⟩

theorem readValue_bracket {maxDigits fuel depth : ℕ} {c : CodePoint} {cs : Text}
    (blank : isBlank c = false) (mark : c ≠ ofChar ']') :
    readValue maxDigits (fuel + 1) (depth + 1) (ofChar '[' :: c :: cs) =
      readElements maxDigits fuel depth [] (c :: cs) := by
  have quote : ofChar '[' ≠ ofChar '"' := by decide
  have brace : ofChar '[' ≠ ofChar '{' := by decide
  rw [readValue.eq_def]
  simp only [quote, brace, if_false, if_true, skipBlanks_cons cs blank, mark]

/- What was read before stays in front of what the rest of the text gives. -/
theorem readElements_join {ts : List Text} {js : List Json} (elements : List.Forall₂ Reads ts js)
    (nonempty : ts ≠ []) {maxDigits fuel depth : ℕ} (done : List Json) (rest : Text)
    (digits : (joinComma ts).length ≤ maxDigits) (fueled : (joinComma ts).length < fuel)
    (nested : (joinComma ts).length ≤ depth) :
    readElements maxDigits fuel depth done (joinComma ts ++ ofChar ']' :: rest) =
      .ok (.arr (done ++ js), rest) := by
  induction elements generalizing fuel done with
  | nil => exact absurd rfl nonempty
  | @cons t j ts js first more ih =>
    cases fuel with
    | zero => cases fueled
    | succ fuel =>
      cases more with
      | nil =>
        have read := first.reads digits (Nat.le_of_lt_succ fueled) nested (delimited_bracket rest)
        exact readElements_end read
      | @cons u k ts js second more =>
        have size := joinComma_cons_length t u ts
        have read : readValue maxDigits fuel depth _ = _ :=
          first.reads (by omega) (by omega) (by omega)
            (delimited_comma (joinComma (u :: ts) ++ ofChar ']' :: rest))
        have later : readElements maxDigits fuel depth _ _ = _ :=
          ih (by simp) (done ++ [j]) (by omega) (by omega) (by omega)
        obtain ⟨c, cs, rfl, blank, _⟩ := second.starts
        obtain ⟨tail, joined⟩ := joinComma_first c cs ts
        rw [joinComma_cons, List.append_assoc, List.cons_append, readElements_comma read]
        rw [joined, List.cons_append] at later ⊢
        rw [skipBlanks_cons _ blank, later, List.append_assoc, List.singleton_append]

theorem reads_array {ts : List Text} {js : List Json} (elements : List.Forall₂ Reads ts js) :
    Reads (text "[" ++ joinComma ts ++ text "]") (.arr js) := by
  have shape : ∀ rest, text "[" ++ joinComma ts ++ text "]" ++ rest =
      ofChar '[' :: (joinComma ts ++ ofChar ']' :: rest) := by
    intro rest
    simp [text]
  refine ⟨⟨_, _, by simpa using shape [], by decide, by decide, by decide⟩, ?_⟩
  intro maxDigits fuel depth rest digits fueled nested delimited
  have size : (text "[" ++ joinComma ts ++ text "]").length = (joinComma ts).length + 2 := by
    simp [text]
  rw [size] at digits fueled nested
  obtain ⟨fuel, rfl⟩ : ∃ k, fuel = k + 1 := ⟨fuel - 1, by omega⟩
  obtain ⟨depth, rfl⟩ : ∃ k, depth = k + 1 := ⟨depth - 1, by omega⟩
  rw [shape]
  cases elements with
  | nil =>
    rw [readValue.eq_def]
    rfl
  | @cons t j ts js first more =>
    have read : readElements maxDigits fuel depth [] _ = _ :=
      readElements_join (.cons first more) (by simp) [] rest (by omega) (by omega) (by omega)
    obtain ⟨c, cs, rfl, blank, mark, _⟩ := first.starts
    obtain ⟨tail, joined⟩ := joinComma_first c cs ts
    rw [joined, List.cons_append] at read ⊢
    rw [readValue_bracket blank mark, read, List.nil_append]

structure ReadsMember (t : Text) (m : Text × Json) : Prop where
  written : ∃ u, t = writeString false m.1 ++ ofChar ':' :: u ∧ Reads u m.2

theorem setMember_new {members : List (Text × Json)} {key : Text} {v : Json}
    (fresh : key ∉ members.map Prod.fst) : setMember members key v = members ++ [(key, v)] := by
  have absent : (members.any fun m => m.1 == key) = false := by
    rw [List.any_eq_false]
    intro m mem same
    simp only [beq_iff_eq] at same
    exact fresh (same ▸ List.mem_map_of_mem mem)
  simp [setMember, absent]

theorem readMembers_key {maxDigits fuel depth : ℕ} {done : List (Text × Json)} {key cs rest : Text}
    {v : Json} (enough : key.length ≤ fuel) (fresh : key ∉ done.map Prod.fst)
    (value : readValue maxDigits fuel depth (skipBlanks cs) = .ok (v, rest)) :
    readMembers maxDigits (fuel + 1) depth done (writeString false key ++ ofChar ':' :: cs) =
      match skipBlanks rest with
      | [] => .error .decode
      | c :: rest =>
        if c = ofChar '}' then .ok (.obj (done ++ [(key, v)]), rest)
        else if c = ofChar ',' then
          readMembers maxDigits fuel depth (done ++ [(key, v)]) (skipBlanks rest)
        else .error .decode := by
  have read : readString (fuel + 1) _ = _ :=
    readString_written key (ofChar ':' :: cs) (Nat.lt_succ_of_le enough)
  have opened : afterWord "\"" (ofChar '"' :: (key.flatMap (writeChar false) ++
      ofChar '"' :: ofChar ':' :: cs)) = some (key.flatMap (writeChar false) ++
        ofChar '"' :: ofChar ':' :: cs) := rfl
  have colon : afterWord ":" (skipBlanks (ofChar ':' :: cs)) = some cs := rfl
  rw [writeString_shape, readMembers, opened]
  simp only [read, bind, Except.bind, colon, value, setMember_new fresh]
  rfl

theorem readMembers_member {maxDigits fuel depth : ℕ} {done : List (Text × Json)} {t rest : Text}
    {m : Text × Json} (member : ReadsMember t m) (fresh : m.1 ∉ done.map Prod.fst)
    (digits : t.length ≤ maxDigits) (fueled : t.length ≤ fuel) (nested : t.length ≤ depth)
    (delimited : Delimited rest) :
    readMembers maxDigits (fuel + 1) depth done (t ++ rest) =
      match skipBlanks rest with
      | [] => .error .decode
      | c :: rest =>
        if c = ofChar '}' then .ok (.obj (done ++ [m]), rest)
        else if c = ofChar ',' then
          readMembers maxDigits fuel depth (done ++ [m]) (skipBlanks rest)
        else .error .decode := by
  obtain ⟨u, rfl, value⟩ := member.written
  have size : (writeString false m.1 ++ ofChar ':' :: u).length =
      (writeString false m.1).length + u.length + 1 := by
    simp
    omega
  have long := writeString_enough m.1
  have read : readValue maxDigits fuel depth (skipBlanks (u ++ rest)) = .ok (m.2, rest) := by
    rw [value.skipBlanks]
    exact value.reads (by omega) (by omega) (by omega) delimited
  rw [List.append_assoc, List.cons_append]
  exact readMembers_key (by omega) fresh read

theorem ReadsMember.starts {t : Text} {m : Text × Json} (h : ReadsMember t m) :
    ∃ cs, t = ofChar '"' :: cs := by
  obtain ⟨u, rfl, _⟩ := h.written
  exact ⟨_, writeString_shape m.1 (ofChar ':' :: u)⟩

theorem readMembers_join {ts : List Text} {ms : List (Text × Json)}
    (members : List.Forall₂ ReadsMember ts ms) (nonempty : ts ≠ []) {maxDigits fuel depth : ℕ}
    (done : List (Text × Json)) (rest : Text) (distinct : ((done ++ ms).map Prod.fst).Nodup)
    (digits : (joinComma ts).length ≤ maxDigits) (fueled : (joinComma ts).length < fuel)
    (nested : (joinComma ts).length ≤ depth) :
    readMembers maxDigits fuel depth done (joinComma ts ++ ofChar '}' :: rest) =
      .ok (.obj (done ++ ms), rest) := by
  induction members generalizing fuel done with
  | nil => exact absurd rfl nonempty
  | @cons t m ts ms first more ih =>
    have fresh : m.1 ∉ done.map Prod.fst := by
      rw [List.map_append, List.map_cons] at distinct
      intro mem
      exact (List.nodup_append.mp distinct).2.2 _ mem _ List.mem_cons_self rfl
    cases fuel with
    | zero => cases fueled
    | succ fuel =>
      cases more with
      | nil =>
        have read : readMembers maxDigits (fuel + 1) depth _ _ = _ :=
          readMembers_member first fresh digits (Nat.le_of_lt_succ fueled) nested
            (delimited_brace rest)
        exact read
      | @cons u k ts ms second more =>
        have size := joinComma_cons_length t u ts
        have read : readMembers maxDigits (fuel + 1) depth _ _ = _ :=
          readMembers_member first fresh (by omega) (by omega) (by omega)
            (delimited_comma (joinComma (u :: ts) ++ ofChar '}' :: rest))
        have later : readMembers maxDigits fuel depth _ _ = _ :=
          ih (by simp) (done ++ [m]) (by simpa using distinct) (by omega) (by omega) (by omega)
        obtain ⟨cs, rfl⟩ := second.starts
        obtain ⟨tail, joined⟩ := joinComma_first (ofChar '"') cs ts
        rw [joinComma_cons, List.append_assoc, List.cons_append, read]
        rw [joined, List.cons_append] at later ⊢
        rw [List.append_assoc, List.singleton_append] at later
        exact later

theorem readValue_brace {maxDigits fuel depth : ℕ} {cs members : Text}
    (key : skipBlanks cs = ofChar '"' :: members) :
    readValue maxDigits (fuel + 1) (depth + 1) (ofChar '{' :: cs) =
      readMembers maxDigits fuel depth [] (ofChar '"' :: members) := by
  have quote : ofChar '{' ≠ ofChar '"' := by decide
  have mark : ofChar '"' ≠ ofChar '}' := by decide
  rw [readValue.eq_def]
  simp only [quote, if_false, if_true, key, mark]

theorem reads_object {ts : List Text} {ms : List (Text × Json)}
    (members : List.Forall₂ ReadsMember ts ms) (distinct : (ms.map Prod.fst).Nodup) :
    Reads (text "\x7b" ++ joinComma ts ++ text "\x7d") (.obj ms) := by
  have shape : ∀ rest, text "\x7b" ++ joinComma ts ++ text "\x7d" ++ rest =
      ofChar '{' :: (joinComma ts ++ ofChar '}' :: rest) := by
    intro rest
    simp [text]
  refine ⟨⟨_, _, by simpa using shape [], by decide, by decide, by decide⟩, ?_⟩
  intro maxDigits fuel depth rest digits fueled nested delimited
  have size : (text "\x7b" ++ joinComma ts ++ text "\x7d").length = (joinComma ts).length + 2 := by
    simp [text]
  rw [size] at digits fueled nested
  obtain ⟨fuel, rfl⟩ : ∃ k, fuel = k + 1 := ⟨fuel - 1, by omega⟩
  obtain ⟨depth, rfl⟩ : ∃ k, depth = k + 1 := ⟨depth - 1, by omega⟩
  rw [shape]
  cases members with
  | nil =>
    rw [readValue.eq_def]
    rfl
  | @cons t m ts ms first more =>
    have read : readMembers maxDigits fuel depth [] _ = _ :=
      readMembers_join (.cons first more) (by simp) [] rest distinct (by omega) (by omega)
        (by omega)
    obtain ⟨cs, rfl⟩ := first.starts
    obtain ⟨tail, joined⟩ := joinComma_first (ofChar '"') cs ts
    rw [joined, List.cons_append] at read ⊢
    rw [readValue_brace (skipBlanks_cons _ (by decide)), read, List.nil_append]

/-- A document is a value with a line end. -/
theorem parse_reads {t : Text} {j : Json} (h : Reads t j) : parse (t ++ text "\n") = .ok j := by
  have size : (t ++ text "\n").length = t.length + 1 := by
    simp [text]
  have delimited : Delimited (text "\n") := delimited_mark '\n' [] (by decide)
  have long : t.length ≤ (t ++ text "\n").length := by omega
  have read : readValue _ ((t ++ text "\n").length + 1) _ _ = _ :=
    h.reads long (Nat.le_succ_of_le long) long delimited
  rw [parse, loadsWithin, h.skipBlanks, read]
  rfl

end JsonText
