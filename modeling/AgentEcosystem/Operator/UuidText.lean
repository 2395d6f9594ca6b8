import AgentEcosystem.Operator.OperatorParser
import Mathlib.Tactic.Ring

/-!
Identifiers in a subject: a text is read as one exactly when it is its printed
form, in either case.
-/
namespace OperatorParser
open AgentSchemas DecimalArithmetic JsonText UnicodeText

theorem hexValue_upper (c : CodePoint) : hexValue (upperAscii c) = hexValue c := by
  unfold hexValue
  rw [upperAscii_val]
  generalize c.val = n
  split_ifs <;> grind

theorem hexValue_lt {c : CodePoint} {d : ℕ} (h : hexValue c = some d) : d < 16 := by
  unfold hexValue at h
  split_ifs at h <;> simp at h <;> omega

theorem digitChar_hex {d : ℕ} (small : d < 16) :
    hexValue (ofChar (Nat.digitChar d)) = some d ∧ ofChar (Nat.digitChar d) ≠ ofChar '-' := by
  have all : ∀ d : Fin 16, hexValue (ofChar (Nat.digitChar d)) = some d.val ∧
      ofChar (Nat.digitChar d) ≠ ofChar '-' := by decide
  exact all ⟨d, small⟩

theorem upper_of_hexValue {c : CodePoint} {d : ℕ} (h : hexValue c = some d) :
    upperAscii (ofChar (Nat.digitChar d)) = upperAscii c := by
  have all : ∀ d : Fin 16, (upperAscii (ofChar (Nat.digitChar d))).val =
      if d.val < 10 then 0x30 + d.val else 0x37 + d.val := by decide
  have digit : (upperAscii (ofChar (Nat.digitChar d))).val =
      if d < 10 then 0x30 + d else 0x37 + d := all ⟨d, hexValue_lt h⟩
  apply Fin.ext
  rw [digit, upperAscii_val]
  unfold hexValue at h
  split_ifs at h <;> simp at h <;> split_ifs <;> omega

theorem ofHex_concat (t : Text) (c : CodePoint) :
    ofHex (t ++ [c]) = 16 * ofHex t + (hexValue c).getD 0 := by
  simp [ofHex]

theorem ofHex_append (s t : Text) : ofHex (s ++ t) = ofHex s * 16 ^ t.length + ofHex t := by
  induction t using List.reverseRecOn with
  | nil => simp [ofHex]
  | append_singleton t c ih =>
    rw [← List.append_assoc, ofHex_concat, ofHex_concat, ih, List.length_append,
      List.length_singleton, pow_succ]
    ring

theorem ofHex_lt {t : Text} (hex : t.all isHex = true) : ofHex t < 16 ^ t.length := by
  induction t using List.reverseRecOn with
  | nil => simp [ofHex]
  | append_singleton t c ih =>
    simp only [List.all_append, Bool.and_eq_true, List.all_cons, List.all_nil, and_true] at hex
    obtain ⟨d, value⟩ := Option.isSome_iff_exists.mp hex.2
    have small := hexValue_lt value
    have before := ih hex.1
    rw [ofHex_concat, value, Option.getD_some, List.length_append, List.length_singleton, pow_succ]
    omega

theorem hexDigits_succ (k n : ℕ) :
    hexDigits (k + 1) n = hexDigits k (n / 16) ++ [Nat.digitChar (n % 16)] := by
  unfold hexDigits
  rw [List.range_succ, List.map_append]
  congr 1
  · apply List.map_congr_left
    intro i mem
    have below := List.mem_range.mp mem
    have exponent : k + 1 - 1 - i = (k - 1 - i) + 1 := by omega
    rw [exponent, pow_succ', Nat.div_div_eq_div_mul]
  · simp

theorem ofHex_hexDigits (k n : ℕ) : ofHex ((hexDigits k n).map ofChar) = n % 16 ^ k := by
  induction k generalizing n with
  | zero => simp [hexDigits, ofHex, Nat.mod_one]
  | succ k ih =>
    have digit := (digitChar_hex (Nat.mod_lt n (by decide : 0 < 16))).1
    rw [hexDigits_succ, List.map_append, List.map_singleton, ofHex_concat, ih, digit,
      Option.getD_some, pow_succ', Nat.mod_mul]
    ring

theorem hexDigits_ofHex {t : Text} (hex : t.all isHex = true) :
    SameLetters ((hexDigits t.length (ofHex t)).map ofChar) t := by
  induction t using List.reverseRecOn with
  | nil => simp [SameLetters, hexDigits]
  | append_singleton t c ih =>
    simp only [List.all_append, Bool.and_eq_true, List.all_cons, List.all_nil, and_true] at hex
    obtain ⟨d, value⟩ := Option.isSome_iff_exists.mp hex.2
    have small := hexValue_lt value
    have before := ih hex.1
    have quotient : (16 * ofHex t + d) / 16 = ofHex t := by omega
    have remainder : (16 * ofHex t + d) % 16 = d := by omega
    unfold SameLetters at before ⊢
    rw [ofHex_concat, value, Option.getD_some, List.length_append, List.length_singleton,
      hexDigits_succ, quotient, remainder]
    simp only [List.map_append, List.map_cons, List.map_nil, before, upper_of_hexValue value]

theorem hexDigits_mod (k n : ℕ) : hexDigits k (n % 16 ^ k) = hexDigits k n := by
  induction k generalizing n with
  | zero => rfl
  | succ k ih =>
    have quotient : n % 16 ^ (k + 1) / 16 = n / 16 % 16 ^ k := by
      rw [pow_succ', Nat.mod_mul_right_div_self]
    have remainder : n % 16 ^ (k + 1) % 16 = n % 16 := by
      rw [pow_succ']
      exact Nat.mod_mul_right_mod n 16 (16 ^ k)
    rw [hexDigits_succ, hexDigits_succ, quotient, remainder, ih]

structure HexGroups where
  parts : List Text
  lengths : parts.map List.length = [8, 4, 4, 4, 12]
  hex : ∀ g ∈ parts, g.all isHex = true

def HexGroups.dashed (groups : HexGroups) : Text := [ofChar '-'].intercalate groups.parts

theorem dash_not_hex {g : Text} (hex : g.all isHex = true) : ofChar '-' ∉ g := by
  intro mem
  exact absurd (List.all_eq_true.mp hex (ofChar '-') mem) (by decide)

theorem HexGroups.split (groups : HexGroups) :
    groups.dashed.splitOn (ofChar '-') = groups.parts := by
  apply List.splitOn_intercalate
  · intro g mem
    exact dash_not_hex (groups.hex g mem)
  · intro none
    have lengths := groups.lengths
    rw [none] at lengths
    cases lengths

theorem HexGroups.isUuid (groups : HexGroups) : isUuid groups.dashed = true := by
  have hex : (groups.parts.all fun g => g.all isHex) = true := List.all_eq_true.mpr groups.hex
  simp [OperatorParser.isUuid, groups.split, groups.lengths, hex]

theorem isUuid_groups {t : Text} (h : isUuid t = true) : ∃ groups : HexGroups, groups.dashed = t := by
  simp only [isUuid, Bool.and_eq_true, beq_iff_eq] at h
  exact ⟨⟨t.splitOn (ofChar '-'), h.1, List.all_eq_true.mp h.2⟩, List.intercalate_splitOn _⟩

theorem HexGroups.undashed (groups : HexGroups) :
    groups.dashed.filter (· ≠ ofChar '-') = groups.parts.flatten := by
  have each : ∀ g ∈ groups.parts, g.filter (· ≠ ofChar '-') = g := by
    intro g mem
    rw [List.filter_eq_self]
    intro c inside
    have other : c ≠ ofChar '-' := fun dash => dash_not_hex (groups.hex g mem) (dash ▸ inside)
    simpa using other
  have all : ∀ parts : List Text, (∀ g ∈ parts, g.filter (· ≠ ofChar '-') = g) →
      ([ofChar '-'].intercalate parts).filter (· ≠ ofChar '-') = parts.flatten := by
    intro parts
    induction parts with
    | nil => simp
    | cons g parts ih =>
      intro kept
      have later := ih fun h mem => kept h (List.mem_cons_of_mem g mem)
      cases parts with
      | nil => simpa using kept g List.mem_cons_self
      | cons h parts =>
        rw [List.intercalate_cons_cons, List.filter_append, List.filter_append, later,
          kept g List.mem_cons_self]
        simp
  exact all groups.parts each

theorem upperAscii_dash (c : CodePoint) : upperAscii c = ofChar '-' ↔ c = ofChar '-' := by
  have dash : (ofChar '-').val = 0x2D := by decide
  rw [Fin.ext_iff, Fin.ext_iff, upperAscii_val, dash]
  split <;> omega

theorem isHex_upper (c : CodePoint) : isHex (upperAscii c) = isHex c := by
  rw [isHex, hexValue_upper, isHex]

theorem splitOn_upper (t : Text) : (t.map upperAscii).splitOn (ofChar '-') =
    (t.splitOn (ofChar '-')).map (List.map upperAscii) := by
  induction t with
  | nil => simp
  | cons c t ih =>
    rw [List.map_cons, List.splitOn_cons_eq_if_modifyHead, List.splitOn_cons_eq_if_modifyHead, ih]
    by_cases dash : c = ofChar '-'
    · simp [dash, (upperAscii_dash _).mpr]
    · have upper : upperAscii c ≠ ofChar '-' := fun same => dash ((upperAscii_dash c).mp same)
      cases t.splitOn (ofChar '-') <;> simp [dash, upper]

theorem isUuid_upper (t : Text) : isUuid (t.map upperAscii) = isUuid t := by
  simp [isUuid, splitOn_upper, Function.comp_def, isHex_upper]

theorem ofHex_upper (t : Text) : ofHex (t.map upperAscii) = ofHex t := by
  simp [ofHex, List.foldl_map, hexValue_upper]

theorem uuidOf_upper (t : Text) : uuidOf (t.map upperAscii) = uuidOf t := by
  have undashed : (t.map upperAscii).filter (· ≠ ofChar '-') =
      (t.filter (· ≠ ofChar '-')).map upperAscii := by
    rw [List.filter_map]
    congr 1
    apply List.filter_congr
    intro c _
    simp [upperAscii_dash]
  rw [uuidOf, uuidOf, undashed, ofHex_upper]

theorem uuid_same {s t : Text} (same : SameLetters s t) :
    isUuid s = isUuid t ∧ uuidOf s = uuidOf t := by
  constructor
  · rw [← isUuid_upper s, ← isUuid_upper t, same]
  · rw [← uuidOf_upper s, ← uuidOf_upper t, same]

def strGroups (u : Uuid) : HexGroups where
  parts := [hexDigits 8 (u.value.val / 16 ^ 24), hexDigits 4 (u.value.val / 16 ^ 20),
    hexDigits 4 (u.value.val / 16 ^ 16), hexDigits 4 (u.value.val / 16 ^ 12),
    hexDigits 12 u.value.val].map (List.map ofChar)
  lengths := by simp [hexDigits]
  hex := by
    have digits : ∀ k n, ((hexDigits k n).map ofChar).all isHex = true := by
      intro k n
      rw [List.all_eq_true]
      intro c mem
      simp only [hexDigits, List.map_map, List.mem_map] at mem
      obtain ⟨i, _, rfl⟩ := mem
      have digit := digitChar_hex (Nat.mod_lt (n / 16 ^ (k - 1 - i)) (by decide : 0 < 16))
      simp [isHex, digit.1]
    intro g mem
    simp only [List.map_cons, List.map_nil, List.mem_cons, List.not_mem_nil, or_false] at mem
    rcases mem with rfl | rfl | rfl | rfl | rfl <;> exact digits _ _

theorem text_str (u : Uuid) : text u.str = (strGroups u).dashed := by
  simp [text, Uuid.str, HexGroups.dashed, strGroups]

theorem isUuid_str (u : Uuid) : isUuid (text u.str) = true := by
  rw [text_str]
  exact (strGroups u).isUuid

theorem uuidOf_str (u : Uuid) : uuidOf (text u.str) = u := by
  have digits : ∀ k n, ofHex ((hexDigits k n).map ofChar) = n % 16 ^ k := ofHex_hexDigits
  have bound := u.value.isLt
  have number : ofHex (strGroups u).parts.flatten = u.value.val := by
    simp only [strGroups, List.map_cons, List.map_nil, List.flatten_cons, List.flatten_nil,
      List.append_nil, ofHex_append, digits, List.length_append, List.length_map]
    simp only [hexDigits, List.length_map, List.length_range]
    norm_num
    omega
  rw [uuidOf, text_str, HexGroups.undashed, number]
  congr 1
  apply Fin.ext
  exact Nat.mod_eq_of_lt bound

theorem HexGroups.dashed_upper (groups : HexGroups) : groups.dashed.map upperAscii =
    [ofChar '-'].intercalate (groups.parts.map (List.map upperAscii)) := by
  have all : ∀ parts : List Text, ([ofChar '-'].intercalate parts).map upperAscii =
      [ofChar '-'].intercalate (parts.map (List.map upperAscii)) := by
    intro parts
    induction parts with
    | nil => rfl
    | cons g parts ih =>
      cases parts with
      | nil => simp
      | cons h parts =>
        rw [List.intercalate_cons_cons, List.map_append, List.map_append, ih]
        simp [(upperAscii_dash (ofChar '-')).mpr rfl]
  exact all groups.parts

theorem digits_same {g : Text} {n : ℕ} (hex : g.all isHex = true)
    (low : n % 16 ^ g.length = ofHex g) :
    ((hexDigits g.length n).map ofChar).map upperAscii = g.map upperAscii := by
  rw [← hexDigits_mod, low]
  exact hexDigits_ofHex hex

/- The parts of a number of 32 hexadecimal digits. -/
theorem uuid_places {a b c d e : ℕ} (boundA : a < 16 ^ 8) (boundB : b < 16 ^ 4)
    (boundC : c < 16 ^ 4) (boundD : d < 16 ^ 4) (boundE : e < 16 ^ 12) {n : ℕ}
    (sum : n = a * 16 ^ 24 + b * 16 ^ 20 + c * 16 ^ 16 + d * 16 ^ 12 + e) :
    n < 2 ^ 128 ∧ n / 16 ^ 24 % 16 ^ 8 = a ∧ n / 16 ^ 20 % 16 ^ 4 = b ∧ n / 16 ^ 16 % 16 ^ 4 = c ∧
      n / 16 ^ 12 % 16 ^ 4 = d ∧ n % 16 ^ 12 = e := by
  norm_num at *
  omega

theorem str_uuidOf {t : Text} (h : isUuid t = true) : SameLetters (text (uuidOf t).str) t := by
  obtain ⟨groups, rfl⟩ := isUuid_groups h
  obtain ⟨a, b, c, d, e, parts⟩ : ∃ a b c d e, groups.parts = [a, b, c, d, e] := by
    have five : groups.parts.length = 5 := by simpa using congrArg List.length groups.lengths
    match groups.parts, five with
    | [a, b, c, d, e], _ => exact ⟨a, b, c, d, e, rfl⟩
  have lengths := groups.lengths
  have hex := groups.hex
  have undashed := groups.undashed
  have upper := groups.dashed_upper
  rw [parts] at lengths hex undashed upper
  simp only [List.map_cons, List.map_nil, List.cons.injEq, and_true] at lengths
  simp only [List.forall_mem_cons] at hex
  obtain ⟨lengthA, lengthB, lengthC, lengthD, lengthE⟩ := lengths
  obtain ⟨hexA, hexB, hexC, hexD, hexE, _⟩ := hex
  have sum : ofHex [a, b, c, d, e].flatten = ofHex a * 16 ^ 24 + ofHex b * 16 ^ 20 +
      ofHex c * 16 ^ 16 + ofHex d * 16 ^ 12 + ofHex e := by
    simp only [List.flatten_cons, List.flatten_nil, List.append_nil, ofHex_append,
      List.length_append, lengthB, lengthC, lengthD, lengthE]
    ring
  obtain ⟨bound, placeA, placeB, placeC, placeD, placeE⟩ := uuid_places (lengthA ▸ ofHex_lt hexA)
    (lengthB ▸ ofHex_lt hexB) (lengthC ▸ ofHex_lt hexC) (lengthD ▸ ofHex_lt hexD)
    (lengthE ▸ ofHex_lt hexE) sum
  have number : (uuidOf groups.dashed).value.val = ofHex [a, b, c, d, e].flatten := by
    rw [uuidOf, undashed]
    exact Nat.mod_eq_of_lt bound
  have digits : ∀ {g : Text} {k n : ℕ}, g.all isHex = true → g.length = k →
      n % 16 ^ k = ofHex g → ((hexDigits k n).map ofChar).map upperAscii = g.map upperAscii := by
    intro g k n hexG length low
    rw [← length] at low ⊢
    exact digits_same hexG low
  rw [SameLetters, text_str, HexGroups.dashed_upper, upper]
  simp only [strGroups, number, List.map_cons, List.map_nil, digits hexA lengthA placeA,
    digits hexB lengthB placeB, digits hexC lengthC placeC, digits hexD lengthD placeD,
    digits hexE lengthE placeE]

/-- A text is an identifier when it is one's printed form, in either case. -/
theorem isUuid_iff {t : Text} {u : Uuid} :
    isUuid t = true ∧ uuidOf t = u ↔ SameLetters (text u.str) t := by
  constructor
  · intro read
    rw [← read.2]
    exact str_uuidOf read.1
  · intro same
    obtain ⟨matched, value⟩ := uuid_same same
    rw [← matched, ← value]
    exact ⟨isUuid_str u, uuidOf_str u⟩

end OperatorParser
