import AgentEcosystem.Text.UnicodeText

/-! Text that holds characters only is read back from its bytes. -/
namespace UnicodeText

theorem continuation_step (k acc : ℕ) {m : ℕ} (bs : Bytes) (small : m < 64) :
    continuation (k + 1) acc (.ofNat (0x80 + m) :: bs) = continuation k (acc * 64 + m) bs := by
  have value : (UInt8.ofNat (0x80 + m)).toNat = 0x80 + m := by
    rw [UInt8.toNat_ofNat']
    omega
  have range : 0x80 ≤ 0x80 + m ∧ 0x80 + m < 0xC0 := by omega
  rw [continuation, value, if_pos range, Nat.add_sub_cancel_left]

theorem wellFormed_char {low : ℕ} {c : CodePoint} {rest : Bytes} {n : ℕ} (same : n = c.val)
    (long : low ≤ c.val) (char : ¬ IsSurrogate c.val) :
    wellFormed low (some (n, rest)) = some (c, rest) := by
  subst same
  have fits : low ≤ c.val ∧ ¬ IsSurrogate c.val ∧ c.val < 0x110000 := ⟨long, char, c.isLt⟩
  rw [wellFormed, dif_pos fits]

theorem decodeFirst_encodeChar {c : CodePoint} (char : ¬ IsSurrogate c.val) (rest : Bytes) :
    decodeFirst (encodeChar c ++ rest) = some (c, rest) := by
  have bound := c.isLt
  have lead : ∀ n, n < 256 → (UInt8.ofNat n).toNat = n := by
    intro n small
    rw [UInt8.toNat_ofNat']
    omega
  simp only [encodeChar]
  split
  · next one =>
    simp only [List.singleton_append, decodeFirst, lead c.val (by omega), one, if_true]
    exact wellFormed_char rfl (Nat.zero_le _) char
  · split
    · next low two =>
      simp only [List.cons_append, List.nil_append, decodeFirst]
      rw [lead _ (by omega), if_neg (by omega), if_neg (by omega), if_pos (by omega),
        continuation_step _ _ _ (by omega), continuation]
      exact wellFormed_char (by omega) (by omega) char
    · split
      · next low low' three =>
        simp only [List.cons_append, List.nil_append, decodeFirst]
        rw [lead _ (by omega), if_neg (by omega), if_neg (by omega), if_neg (by omega),
          if_pos (by omega), continuation_step _ _ _ (by omega),
          continuation_step _ _ _ (by omega), continuation]
        exact wellFormed_char (by omega) (by omega) char
      · next low low' low'' =>
        simp only [List.cons_append, List.nil_append, decodeFirst]
        rw [lead _ (by omega), if_neg (by omega), if_neg (by omega), if_neg (by omega),
          if_neg (by omega), if_pos (by omega), continuation_step _ _ _ (by omega),
          continuation_step _ _ _ (by omega), continuation_step _ _ _ (by omega), continuation]
        exact wellFormed_char (by omega) (by omega) char

theorem encodeChar_injective {s t : Text} (hs : Characters s) (ht : Characters t)
    (same : s.flatMap encodeChar = t.flatMap encodeChar) : s = t := by
  have first : ∀ {c : CodePoint} {s : Text}, Characters (c :: s) →
      decodeFirst ((c :: s).flatMap encodeChar) = some (c, s.flatMap encodeChar) := by
    intro c s chars
    rw [List.flatMap_cons]
    exact decodeFirst_encodeChar (chars c List.mem_cons_self) _
  induction s generalizing t with
  | nil =>
    cases t with
    | nil => rfl
    | cons d t =>
      have read := first ht
      rw [← same] at read
      cases read
  | cons c s ih =>
    have read := first hs
    rw [same] at read
    cases t with
    | nil => cases read
    | cons d t =>
      rw [first ht] at read
      obtain ⟨rfl, rest⟩ := Prod.mk.inj (Option.some.inj read)
      rw [ih (fun e mem => hs e (List.mem_cons_of_mem _ mem))
        (fun e mem => ht e (List.mem_cons_of_mem _ mem)) rest.symm]

theorem characters_of_encode {t : Text} {bytes : Bytes} (encoded : encode t = some bytes) :
    Characters t ∧ t.flatMap encodeChar = bytes := by
  unfold encode at encoded
  split at encoded
  · cases encoded
  · next plain =>
    refine ⟨?_, Option.some.inj encoded⟩
    intro c mem surrogate
    exact plain (List.any_eq_true.mpr ⟨c, mem, decide_eq_true surrogate⟩)

theorem encode_injective {s t : Text} {bytes : Bytes} (hs : encode s = some bytes)
    (ht : encode t = some bytes) : s = t := by
  obtain ⟨charsS, bytesS⟩ := characters_of_encode hs
  obtain ⟨charsT, bytesT⟩ := characters_of_encode ht
  exact encodeChar_injective charsS charsT (bytesS.trans bytesT.symm)

theorem encodeChar_ne_nil (c : CodePoint) : encodeChar c ≠ [] := by
  simp only [encodeChar]
  split_ifs <;> simp

/-- Text is read back from its bytes. -/
theorem decodeStrict_encoded {t : Text} (chars : Characters t) :
    decodeStrict (t.flatMap encodeChar) = some t := by
  have read : ∀ fuel, (t.flatMap encodeChar).length ≤ fuel →
      decodeStrictFrom fuel (t.flatMap encodeChar) = some t := by
    induction t with
    | nil =>
      intro fuel _
      cases fuel <;> rfl
    | cons c t ih =>
      intro fuel enough
      have first := decodeFirst_encodeChar (chars c List.mem_cons_self) (t.flatMap encodeChar)
      have later := ih fun d mem => chars d (List.mem_cons_of_mem c mem)
      rw [List.flatMap_cons] at enough ⊢
      cases bytes : encodeChar c with
      | nil => exact absurd bytes (encodeChar_ne_nil c)
      | cons b bs =>
        rw [bytes, List.cons_append, List.length_cons] at enough
        rw [bytes, List.cons_append] at first
        cases fuel with
        | zero => omega
        | succ fuel =>
          have rest := later fuel (by simp at enough ⊢; omega)
          simp only [List.cons_append, decodeStrictFrom, first, rest, Option.bind_eq_bind,
            Option.bind_some, Option.pure_def]
  exact read _ le_rfl

/-- `bs.decode("ascii")`, for bytes that are ASCII. -/
def asciiText (bs : Bytes) : Text := bs.map fun b => Fin.ofNat 0x110000 b.toNat

theorem encode_asciiText {bs : Bytes} (ascii : ∀ b ∈ bs, b.toNat < 0x80) :
    encode (asciiText bs) = some bs := by
  have value : ∀ b : UInt8, (Fin.ofNat 0x110000 b.toNat).val = b.toNat := by
    intro b
    have bound := b.toNat_lt
    exact Nat.mod_eq_of_lt (by omega)
  have chars : Characters (asciiText bs) := by
    intro c mem surrogate
    obtain ⟨b, inside, rfl⟩ := List.mem_map.mp mem
    have low := surrogate.1
    have bound := b.toNat_lt
    rw [value b] at low
    omega
  have single : ∀ b ∈ bs, encodeChar (Fin.ofNat 0x110000 b.toNat) = [b] := by
    intro b mem
    simp only [encodeChar, value b, ascii b mem, if_true, UInt8.ofNat_toNat]
  rw [encode_of_characters chars, asciiText, List.flatMap_map]
  congr 1
  rw [List.flatMap_congr single, List.flatMap_singleton']

end UnicodeText
