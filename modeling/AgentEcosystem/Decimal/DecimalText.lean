import AgentEcosystem.Decimal.DecimalValues

/-!
The text of a decimal determines its value: reading the text back gives the
value it was written from, so two numbers that print alike are equal.
-/
namespace DecimalArithmetic

def readMantissa (cs : List Char) : ℚ :=
  let whole := cs.takeWhile (· ≠ '.')
  let fraction := (cs.dropWhile (· ≠ '.')).drop 1
  Nat.ofDigitChars 10 (whole ++ fraction) 0 * (10 : ℚ) ^ (-fraction.length : ℤ)

def readPower : List Char → ℤ
  | [] => 0
  | [_] => 0
  | _ :: sign :: digits =>
      if sign = '-' then -Nat.ofDigitChars 10 digits 0 else Nat.ofDigitChars 10 digits 0

def readUnsigned (cs : List Char) : ℚ :=
  readMantissa (cs.takeWhile (· ≠ 'E')) * (10 : ℚ) ^ readPower (cs.dropWhile (· ≠ 'E'))

def readText : List Char → ℚ
  | [] => 0
  | c :: cs => if c = '-' then -readUnsigned cs else readUnsigned (c :: cs)

theorem takeWhile_before {p : Char → Bool} (xs ys : List Char) (all : ∀ c ∈ xs, p c = true)
    (stop : ∀ c ∈ ys.head?, p c = false) :
    (xs ++ ys).takeWhile p = xs ∧ (xs ++ ys).dropWhile p = ys := by
  induction xs with
  | nil =>
    cases ys with
    | nil => simp
    | cons y ys => simp [stop y rfl]
  | cons x xs ih =>
    obtain ⟨take, drop⟩ := ih fun c mem => all c (List.mem_cons_of_mem x mem)
    have first := all x List.mem_cons_self
    constructor
    · rw [List.cons_append, List.takeWhile_cons_of_pos first, take]
    · rw [List.cons_append, List.dropWhile_cons_of_pos first, drop]

theorem isDigit_toDigits {n : ℕ} {c : Char} (mem : c ∈ Nat.toDigits 10 n) : c.isDigit = true :=
  Nat.isDigit_of_mem_toDigits (by decide) (by decide) mem

theorem digit_ne {c d : Char} (digit : c.isDigit = true) (other : d.isDigit = false) : c ≠ d := by
  rintro rfl
  rw [digit] at other
  cases other

theorem readMantissa_parts {whole : List Char} (fraction : List Char)
    (digits : ∀ c ∈ whole, c.isDigit = true) :
    readMantissa (whole ++ '.' :: fraction) =
      Nat.ofDigitChars 10 (whole ++ fraction) 0 * (10 : ℚ) ^ (-fraction.length : ℤ) := by
  obtain ⟨take, drop⟩ := takeWhile_before (p := (· ≠ '.')) whole ('.' :: fraction)
    (fun c mem => by simpa using digit_ne (digits c mem) (by decide))
    (fun c head => by cases head; decide)
  simp only [readMantissa, take, drop, List.drop_succ_cons, List.drop_zero]

theorem readMantissa_whole {whole : List Char} (digits : ∀ c ∈ whole, c.isDigit = true) :
    readMantissa whole = Nat.ofDigitChars 10 whole 0 := by
  obtain ⟨take, drop⟩ := takeWhile_before (p := (· ≠ '.')) whole []
    (fun c mem => by simpa using digit_ne (digits c mem) (by decide)) (by simp)
  rw [List.append_nil] at take drop
  simp only [readMantissa, take, drop, List.drop_nil, List.append_nil, List.length_nil,
    Nat.cast_zero, neg_zero, zpow_zero, mul_one]

/- One case for each place the point can have. -/
theorem readMantissa_text (n : ℕ) (point : ℤ) :
    readMantissa (mantissaText (Nat.toDigits 10 n) point) =
      n * (10 : ℚ) ^ (point - (Nat.toDigits 10 n).length) := by
  have value : Nat.ofDigitChars 10 (Nat.toDigits 10 n) 0 = n := Nat.ofDigitChars_ten_toDigits
  have digits : ∀ c ∈ Nat.toDigits 10 n, c.isDigit = true := fun c mem => isDigit_toDigits mem
  unfold mantissaText
  split
  · rename_i left
    have zeroDigit : ∀ c ∈ ['0'], c.isDigit = true := List.all_eq_true.mp (by decide)
    have parts := readMantissa_parts
      (List.replicate (-point).toNat '0' ++ Nat.toDigits 10 n) zeroDigit
    have zeros : Nat.ofDigitChars 10 (['0'] ++ List.replicate (-point).toNat '0') 0 = 0 := by
      simp [Nat.ofDigitChars_cons, Nat.ofDigitChars_replicate_zero]
    rw [← List.append_assoc, Nat.ofDigitChars_append, zeros, value] at parts
    refine parts.trans ?_
    congr 2
    rw [List.length_append, List.length_replicate]
    omega
  · split
    · rename_i right
      have all : ∀ c ∈ Nat.toDigits 10 n ++
          List.replicate (point - (Nat.toDigits 10 n).length).toNat '0', c.isDigit = true := by
        intro c mem
        rcases List.mem_append.mp mem with digit | zero
        · exact digits c digit
        · rw [List.eq_of_mem_replicate zero]
          decide
      obtain ⟨k, exponent⟩ : ∃ k : ℕ, point - (Nat.toDigits 10 n).length = k :=
        ⟨(point - (Nat.toDigits 10 n).length).toNat, by omega⟩
      rw [exponent, Int.toNat_natCast] at all ⊢
      rw [readMantissa_whole all, Nat.ofDigitChars_append, value, Nat.ofDigitChars_replicate_zero,
        zpow_natCast]
      push_cast
      ring
    · rename_i left right
      rw [readMantissa_parts _ fun c mem => digits c (List.mem_of_mem_take mem),
        List.take_append_drop, value]
      congr 2
      rw [List.length_drop]
      omega

theorem readPower_text (n : ℤ) : readPower (powerText n) = n := by
  unfold powerText
  split
  · rename_i zero
    rw [zero]
    rfl
  · have value : Nat.ofDigitChars 10 (Nat.toDigits 10 n.natAbs) 0 = n.natAbs :=
      Nat.ofDigitChars_ten_toDigits
    by_cases neg : n < 0
    · simp only [neg, if_true, readPower, value]
      omega
    · have plus : ('+' : Char) ≠ '-' := by decide
      simp only [neg, if_false, readPower, plus, value]
      omega

theorem mantissaText_chars {n : ℕ} {point : ℤ} {c : Char}
    (mem : c ∈ mantissaText (Nat.toDigits 10 n) point) : c.isDigit = true ∨ c = '.' := by
  unfold mantissaText at mem
  split at mem
  · rcases List.mem_cons.mp mem with rfl | mem
    · exact .inl (by decide)
    · rcases List.mem_cons.mp mem with rfl | mem
      · exact .inr rfl
      · rcases List.mem_append.mp mem with zero | digit
        · rw [List.eq_of_mem_replicate zero]
          exact .inl (by decide)
        · exact .inl (isDigit_toDigits digit)
  · split at mem
    · rcases List.mem_append.mp mem with digit | zero
      · exact .inl (isDigit_toDigits digit)
      · rw [List.eq_of_mem_replicate zero]
        exact .inl (by decide)
    · rcases List.mem_append.mp mem with digit | mem
      · exact .inl (isDigit_toDigits (List.mem_of_mem_take digit))
      · rcases List.mem_cons.mp mem with rfl | digit
        · exact .inr rfl
        · exact .inl (isDigit_toDigits (List.mem_of_mem_drop digit))

theorem powerText_chars {n : ℤ} {c : Char} (mem : c ∈ powerText n) :
    c.isDigit = true ∨ c = 'E' ∨ c = '-' ∨ c = '+' := by
  unfold powerText at mem
  split at mem
  · cases mem
  · rcases List.mem_cons.mp mem with rfl | mem
    · exact .inr (.inl rfl)
    · rcases List.mem_cons.mp mem with rfl | digit
      · split
        · exact .inr (.inr (.inl rfl))
        · exact .inr (.inr (.inr rfl))
      · exact .inl (isDigit_toDigits digit)

theorem readUnsigned_text (n : ℕ) (point power : ℤ) :
    readUnsigned (mantissaText (Nat.toDigits 10 n) point ++ powerText power) =
      n * (10 : ℚ) ^ (point + power - (Nat.toDigits 10 n).length) := by
  have mantissa : ∀ c ∈ mantissaText (Nat.toDigits 10 n) point, decide (c ≠ 'E') = true := by
    intro c mem
    rcases mantissaText_chars mem with digit | rfl
    · simpa using digit_ne digit (by decide)
    · decide
  have stop : ∀ c ∈ (powerText power).head?, decide (c ≠ 'E') = false := by
    intro c head
    unfold powerText at head
    split at head
    · cases head
    · cases head
      decide
  obtain ⟨take, drop⟩ := takeWhile_before (p := (· ≠ 'E')) _ _ mantissa stop
  rw [readUnsigned, take, drop, readMantissa_text, readPower_text, mul_assoc, ← ten_zpow_add]
  congr 2
  ring

theorem mantissaText_head (n : ℕ) (point : ℤ) (rest : List Char) :
    ∃ c cs, mantissaText (Nat.toDigits 10 n) point ++ rest = c :: cs ∧ c ≠ '-' := by
  rcases shape : mantissaText (Nat.toDigits 10 n) point with _ | ⟨c, cs⟩
  · have none : (mantissaText (Nat.toDigits 10 n) point).length = 0 := by rw [shape]; rfl
    have pos := Nat.length_toDigits_pos (b := 10) (n := n)
    unfold mantissaText at none
    split at none
    · simp at none
    · split at none
      · simp at none
      · simp at none
  · refine ⟨c, cs ++ rest, rfl, ?_⟩
    have mem : c ∈ mantissaText (Nat.toDigits 10 n) point := by
      rw [shape]
      exact List.mem_cons_self
    rcases mantissaText_chars mem with digit | rfl
    · exact digit_ne digit (by decide)
    · decide

theorem readText_str (x : FiniteDecimal) : readText x.str.toList = x.toRat := by
  unfold FiniteDecimal.str
  extract_lets digits left point
  obtain ⟨c, cs, shape, plain⟩ := mantissaText_head x.coeff point (powerText (left - point))
  have unsigned := readUnsigned_text x.coeff point (left - point)
  have exponent : point + (left - point) - (Nat.toDigits 10 x.coeff).length = x.exp := by
    simp only [left, digits]
    ring
  rw [exponent] at unsigned
  rw [String.toList_ofList, List.append_assoc, FiniteDecimal.toRat, FiniteDecimal.signed]
  cases x.neg with
  | true =>
    simp only [if_true, List.singleton_append, readText]
    rw [unsigned]
    push_cast
    ring
  | false =>
    simp only [Bool.false_eq_true, if_false, List.nil_append, Int.cast_natCast]
    rw [← unsigned]
    change readText (mantissaText (Nat.toDigits 10 x.coeff) point ++ _) = _
    rw [shape]
    simp only [readText, plain, if_false]

theorem toRat_eq_of_str {x y : FiniteDecimal} (same : x.str = y.str) : x.toRat = y.toRat := by
  rw [← readText_str, ← readText_str, same]

theorem str_chars {x : FiniteDecimal} {c : Char} (mem : c ∈ x.str.toList) :
    c.isDigit = true ∨ c = '.' ∨ c = 'E' ∨ c = '-' ∨ c = '+' := by
  unfold FiniteDecimal.str at mem
  extract_lets digits left point at mem
  rw [String.toList_ofList] at mem
  rcases List.mem_append.mp mem with mem | power
  · rcases List.mem_append.mp mem with sign | mantissa
    · cases negative : x.neg with
      | true =>
        rw [negative] at sign
        exact .inr (.inr (.inr (.inl (List.mem_singleton.mp sign))))
      | false =>
        rw [negative] at sign
        cases sign
    · rcases mantissaText_chars mantissa with digit | rfl
      · exact .inl digit
      · exact .inr (.inl rfl)
  · rcases powerText_chars power with digit | rfl | rfl | rfl
    · exact .inl digit
    · exact .inr (.inr (.inl rfl))
    · exact .inr (.inr (.inr (.inl rfl)))
    · exact .inr (.inr (.inr (.inr rfl)))

theorem str_whole {n k : ℕ} (short : k < (Nat.toDigits 10 n).length) :
    (FiniteDecimal.mk false n (-k)).str.toList =
      (Nat.toDigits 10 n).take ((Nat.toDigits 10 n).length - k) ++
        if k = 0 then []
        else '.' :: (Nat.toDigits 10 n).drop ((Nat.toDigits 10 n).length - k) := by
  have left : (-(k : ℤ) + (Nat.toDigits 10 n).length) =
      ((Nat.toDigits 10 n).length - k : ℕ) := by omega
  have plain : -(k : ℤ) ≤ 0 ∧ -6 < (((Nat.toDigits 10 n).length - k : ℕ) : ℤ) := by omega
  have inside : ¬ (((Nat.toDigits 10 n).length - k : ℕ) : ℤ) ≤ 0 := by omega
  rw [FiniteDecimal.str, String.toList_ofList]
  simp only [left, plain, and_self, if_true, sub_self, powerText, Bool.false_eq_true, if_false,
    List.nil_append, List.append_nil, mantissaText, inside, Int.toNat_natCast]
  by_cases whole : k = 0
  · subst whole
    simp
  · have behind : ¬ ((Nat.toDigits 10 n).length : ℤ) ≤ ((Nat.toDigits 10 n).length - k : ℕ) := by
      omega
    simp only [behind, whole, if_false]

end DecimalArithmetic
