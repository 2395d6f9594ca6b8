import AgentEcosystem.Text.Base64

/-! What is written in base64 is read back, and its padding is what its length lacks. -/
namespace Base64
open UnicodeText

theorem sextet_alphabet {n : ℕ} (small : n < 64) : sextet (alphabet n) = some n := by
  have all : ∀ n : Fin 64, sextet (alphabet n) = some n.val := by decide
  exact all ⟨n, small⟩

theorem alphabet_ne_padChar {n : ℕ} (small : n < 64) : alphabet n ≠ padChar := by
  intro same
  have read := sextet_alphabet small
  rw [same] at read
  cases read

section Characters
variable {n : ℕ} (small : n < 64) (left pads : ℕ) (bs : Bytes)
include small

theorem a2bFrom_first : a2bFrom 0 left pads (alphabet n :: bs) = a2bFrom 1 n 0 bs := by
  simp only [a2bFrom, alphabet_ne_padChar small, if_false, sextet_alphabet small]

theorem a2bFrom_second : a2bFrom 1 left pads (alphabet n :: bs) =
    (a2bFrom 2 (n % 16) 0 bs).map (.ofNat (left * 4 + n / 16) :: ·) := by
  simp only [a2bFrom, alphabet_ne_padChar small, if_false, sextet_alphabet small]
  rfl

theorem a2bFrom_third : a2bFrom 2 left pads (alphabet n :: bs) =
    (a2bFrom 3 (n % 4) 0 bs).map (.ofNat (left * 16 + n / 4) :: ·) := by
  simp only [a2bFrom, alphabet_ne_padChar small, if_false, sextet_alphabet small]
  rfl

theorem a2bFrom_fourth : a2bFrom 3 left pads (alphabet n :: bs) =
    (a2bFrom 0 0 0 bs).map (.ofNat (left * 64 + n) :: ·) := by
  simp only [a2bFrom, alphabet_ne_padChar small, if_false, sextet_alphabet small]
  rfl

end Characters

theorem ofNat_eq_of_toNat {n : ℕ} {b : UInt8} (same : n = b.toNat) : UInt8.ofNat n = b := by
  rw [same, UInt8.ofNat_toNat]

/- Three bytes fill a group of four; one or two leave the padding to complete it. -/
theorem b64decode_b64encode (s : Bytes) : b64decode (b64encode s) = .ok s := by
  unfold b64decode
  induction s using b64encode.induct with
  | case1 => rfl
  | case2 a =>
    have bound := a.toNat_lt
    rw [b64encode, a2bFrom_first (by omega), a2bFrom_second (by omega),
      ofNat_eq_of_toNat (b := a) (by omega)]
    rfl
  | case3 a b =>
    have boundA := a.toNat_lt
    have boundB := b.toNat_lt
    rw [b64encode, a2bFrom_first (by omega), a2bFrom_second (by omega),
      a2bFrom_third (by omega), ofNat_eq_of_toNat (b := a) (by omega),
      ofNat_eq_of_toNat (b := b) (by omega)]
    rfl
  | case4 a b c s ih =>
    have boundA := a.toNat_lt
    have boundB := b.toNat_lt
    have boundC := c.toNat_lt
    rw [b64encode, a2bFrom_first (by omega), a2bFrom_second (by omega),
      a2bFrom_third (by omega), a2bFrom_fourth (by omega), ih,
      ofNat_eq_of_toNat (b := a) (by omega), ofNat_eq_of_toNat (b := b) (by omega),
      ofNat_eq_of_toNat (b := c) (by omega)]
    rfl

theorem mem_b64encode {s : Bytes} {c : UInt8} (mem : c ∈ b64encode s) :
    c = padChar ∨ ∃ n < 64, c = alphabet n := by
  induction s using b64encode.induct with
  | case1 => cases mem
  | case2 a =>
    have bound := a.toNat_lt
    simp only [b64encode, List.mem_cons, List.not_mem_nil, or_false] at mem
    rcases mem with rfl | rfl | rfl | rfl
    · exact .inr ⟨_, by omega, rfl⟩
    · exact .inr ⟨_, by omega, rfl⟩
    · exact .inl rfl
    · exact .inl rfl
  | case3 a b =>
    have boundA := a.toNat_lt
    have boundB := b.toNat_lt
    simp only [b64encode, List.mem_cons, List.not_mem_nil, or_false] at mem
    rcases mem with rfl | rfl | rfl | rfl
    · exact .inr ⟨_, by omega, rfl⟩
    · exact .inr ⟨_, by omega, rfl⟩
    · exact .inr ⟨_, by omega, rfl⟩
    · exact .inl rfl
  | case4 a b c s ih =>
    have boundA := a.toNat_lt
    have boundB := b.toNat_lt
    have boundC := c.toNat_lt
    simp only [b64encode, List.mem_cons] at mem
    rcases mem with rfl | rfl | rfl | rfl | later
    · exact .inr ⟨_, by omega, rfl⟩
    · exact .inr ⟨_, by omega, rfl⟩
    · exact .inr ⟨_, by omega, rfl⟩
    · exact .inr ⟨_, by omega, rfl⟩
    · exact ih later

theorem length_b64encode (s : Bytes) : 4 ∣ (b64encode s).length := by
  induction s using b64encode.induct with
  | case1 => exact Nat.dvd_zero 4
  | case2 a => exact Nat.dvd_refl 4
  | case3 a b => exact Nat.dvd_refl 4
  | case4 a b c s ih =>
    simp only [b64encode, List.length_cons]
    omega

theorem count_padChar_b64encode (s : Bytes) : (b64encode s).count padChar ≤ 2 := by
  have other : ∀ n < 64, (alphabet n == padChar) = false := by
    intro n small
    exact beq_eq_false_iff_ne.mpr (alphabet_ne_padChar small)
  induction s using b64encode.induct with
  | case1 => exact Nat.zero_le 2
  | case2 a =>
    have bound := a.toNat_lt
    simp [b64encode, List.count_cons, other _ (show a.toNat / 4 < 64 by omega),
      other _ (show a.toNat % 4 * 16 < 64 by omega)]
  | case3 a b =>
    have boundA := a.toNat_lt
    have boundB := b.toNat_lt
    simp [b64encode, List.count_cons, other _ (show a.toNat / 4 < 64 by omega),
      other _ (show a.toNat % 4 * 16 + b.toNat / 16 < 64 by omega),
      other _ (show b.toNat % 16 * 4 < 64 by omega)]
  | case4 a b c s ih =>
    have boundA := a.toNat_lt
    have boundB := b.toNat_lt
    have boundC := c.toNat_lt
    simpa [b64encode, List.count_cons, other _ (show a.toNat / 4 < 64 by omega),
      other _ (show a.toNat % 4 * 16 + b.toNat / 16 < 64 by omega),
      other _ (show b.toNat % 16 * 4 + c.toNat / 64 < 64 by omega),
      other _ (show c.toNat % 64 < 64 by omega)] using ih

theorem fromUrlsafe_toUrlsafe {c : UInt8} (written : c = padChar ∨ ∃ n < 64, c = alphabet n) :
    fromUrlsafe (toUrlsafe c) = c := by
  rcases written with rfl | ⟨n, small, rfl⟩
  · rfl
  · have all : ∀ n : Fin 64, fromUrlsafe (toUrlsafe (alphabet n)) = alphabet n := by decide
    exact all ⟨n, small⟩

theorem urlsafeB64decode_urlsafeB64encode (s : Bytes) :
    urlsafeB64decode (urlsafeB64encode s) = .ok s := by
  have same : (b64encode s).map (fromUrlsafe ∘ toUrlsafe) = b64encode s := by
    refine Eq.trans (List.map_congr_left ?_) (List.map_id _)
    intro c mem
    exact fromUrlsafe_toUrlsafe (mem_b64encode mem)
  rw [urlsafeB64decode, urlsafeB64encode, List.map_map, same, b64decode_b64encode]

theorem length_urlsafeB64encode (s : Bytes) : 4 ∣ (urlsafeB64encode s).length := by
  rw [urlsafeB64encode, List.length_map]
  exact length_b64encode s

theorem toUrlsafe_eq_padChar {c : UInt8} : toUrlsafe c = padChar ↔ c = padChar := by
  unfold toUrlsafe
  split
  · next plus => simp [plus, padChar]
  · split
    · next slash => simp [slash, padChar]
    · rfl

theorem ascii_b64encode {s : Bytes} : ∀ c ∈ b64encode s, c.toNat < 0x80 ∧ (toUrlsafe c).toNat < 0x80 := by
  intro c mem
  rcases mem_b64encode mem with rfl | ⟨n, small, rfl⟩
  · decide
  · have all : ∀ n : Fin 64, (alphabet n).toNat < 0x80 ∧ (toUrlsafe (alphabet n)).toNat < 0x80 := by
      decide
    exact all ⟨n, small⟩

theorem count_padChar_urlsafe (s : Bytes) : (urlsafeB64encode s).count padChar ≤ 2 := by
  have same : (urlsafeB64encode s).count padChar = (b64encode s).count padChar := by
    rw [urlsafeB64encode, List.count_eq_countP, List.countP_map, List.count_eq_countP]
    apply List.countP_congr
    intro c _
    simpa using toUrlsafe_eq_padChar
  rw [same]
  exact count_padChar_b64encode s

end Base64
