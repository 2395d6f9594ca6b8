import Mathlib.Algebra.GroupWithZero.Nat
import Mathlib.Data.List.Infix
import Mathlib.Data.List.Lex
import Mathlib.Order.Fin.Basic

/-!
Text as a sequence of code points, and its bytes in UTF-8. A code point may be a
surrogate, which stands for no character: text that holds one has no bytes.
-/
namespace UnicodeText

instance someCodePoint : NeZero (0x110000 : ℕ) := ⟨by decide⟩

instance someDigit : NeZero (10 : ℕ) := ⟨by decide⟩

abbrev CodePoint := Fin 0x110000
abbrev Text := List CodePoint
abbrev Bytes := List UInt8

instance lawfulCodePoint : LawfulBEq CodePoint := inferInstance

instance lawfulText : LawfulBEq Text := inferInstance

def ofChar (c : Char) : CodePoint := Fin.ofNat 0x110000 c.toNat

def text (s : String) : Text := s.toList.map ofChar

def contains (needle hay : Text) : Bool := hay.tails.any needle.isPrefixOf

theorem contains_iff {needle hay : Text} : contains needle hay = true ↔ needle <:+: hay := by
  simp only [contains, List.any_eq_true, List.mem_tails, List.isPrefixOf_iff_prefix,
    List.infix_iff_prefix_suffix]
  constructor
  · rintro ⟨rest, suffix, first⟩
    exact ⟨rest, first, suffix⟩
  · rintro ⟨rest, first, suffix⟩
    exact ⟨rest, suffix, first⟩

def IsSurrogate (n : ℕ) : Prop := 0xD800 ≤ n ∧ n < 0xE000

instance (n : ℕ) : Decidable (IsSurrogate n) := inferInstanceAs (Decidable (_ ∧ _))

def encodeChar (c : CodePoint) : Bytes :=
  let n := c.val
  if n < 0x80 then [.ofNat n]
  else if n < 0x800 then [.ofNat (0xC0 + n / 64), .ofNat (0x80 + n % 64)]
  else if n < 0x10000 then
    [.ofNat (0xE0 + n / 4096), .ofNat (0x80 + n / 64 % 64), .ofNat (0x80 + n % 64)]
  else [.ofNat (0xF0 + n / 262144), .ofNat (0x80 + n / 4096 % 64), .ofNat (0x80 + n / 64 % 64),
    .ofNat (0x80 + n % 64)]

def encode (t : Text) : Option Bytes :=
  if t.any fun c => decide (IsSurrogate c.val) then none else some (t.flatMap encodeChar)

def Characters (t : Text) : Prop := ∀ c ∈ t, ¬ IsSurrogate c.val

theorem characters_append {s t : Text} (hs : Characters s) (ht : Characters t) :
    Characters (s ++ t) :=
  List.forall_mem_append.mpr ⟨hs, ht⟩

theorem characters_flatMap {α : Type*} {xs : List α} {f : α → Text}
    (h : ∀ x ∈ xs, Characters (f x)) : Characters (xs.flatMap f) := by
  intro c mem
  obtain ⟨x, member, inside⟩ := List.mem_flatMap.mp mem
  exact h x member c inside

theorem ofChar_val (c : Char) : (ofChar c).val = c.toNat := by
  apply Nat.mod_eq_of_lt
  rcases c.valid with low | ⟨_, high⟩
  · exact Nat.lt_trans low (by decide)
  · exact high

theorem ofChar_injective : Function.Injective ofChar := by
  intro c d same
  have values := congrArg Fin.val same
  rw [ofChar_val, ofChar_val] at values
  exact Char.toNat_inj.mp values

theorem text_injective : Function.Injective text := by
  intro s t same
  exact String.toList_injective (List.map_injective_iff.mpr ofChar_injective same)

theorem text_eq_iff {s t : String} : text s = text t ↔ s = t := text_injective.eq_iff

theorem ofChar_character (c : Char) : ¬ IsSurrogate (ofChar c).val := by
  rw [ofChar_val]
  rintro ⟨low, high⟩
  rcases c.valid with below | ⟨above, _⟩
  · exact absurd below (not_lt.mpr low)
  · exact absurd high (not_lt.mpr above)

theorem characters_text (s : String) : Characters (text s) := by
  intro c mem
  obtain ⟨ch, _, rfl⟩ := List.mem_map.mp mem
  exact ofChar_character ch

theorem encode_of_characters {t : Text} (h : Characters t) :
    encode t = some (t.flatMap encodeChar) := by
  rw [encode, if_neg]
  intro surrogate
  obtain ⟨c, mem, found⟩ := List.any_eq_true.mp surrogate
  exact h c mem (of_decide_eq_true found)

def continuation : ℕ → ℕ → Bytes → Option (ℕ × Bytes)
  | 0, acc, bs => some (acc, bs)
  | _ + 1, _, [] => none
  | k + 1, acc, b :: bs =>
    if 0x80 ≤ b.toNat ∧ b.toNat < 0xC0 then continuation k (acc * 64 + (b.toNat - 0x80)) bs
    else none

def wellFormed (low : ℕ) (read : Option (ℕ × Bytes)) : Option (CodePoint × Bytes) :=
  match read with
  | none => none
  | some (n, rest) =>
    if h : low ≤ n ∧ ¬ IsSurrogate n ∧ n < 0x110000 then some (⟨n, h.2.2⟩, rest) else none

def decodeFirst : Bytes → Option (CodePoint × Bytes)
  | [] => none
  | b :: rest =>
    let lead := b.toNat
    if lead < 0x80 then wellFormed 0 (some (lead, rest))
    else if lead < 0xC0 then none
    else if lead < 0xE0 then wellFormed 0x80 (continuation 1 (lead - 0xC0) rest)
    else if lead < 0xF0 then wellFormed 0x800 (continuation 2 (lead - 0xE0) rest)
    else if lead < 0xF8 then wellFormed 0x10000 (continuation 3 (lead - 0xF0) rest)
    else none

def decodeFrom : ℕ → Bytes → Text
  | 0, _ => []
  | _ + 1, [] => []
  | fuel + 1, b :: rest =>
    match decodeFirst (b :: rest) with
    | some (c, rest) => c :: decodeFrom fuel rest
    | none => decodeFrom fuel rest

/-- Decoding that leaves out every byte that belongs to no character. -/
def decodeIgnore (bs : Bytes) : Text := decodeFrom bs.length bs

example : decodeIgnore [0x41, 0xE2, 0x82, 0x42, 0xFF, 0xC3, 0xA9] = text "ABé" := by decide

def decodeStrictFrom : ℕ → Bytes → Option Text
  | _, [] => some []
  | 0, _ :: _ => none
  | fuel + 1, b :: rest => do
    let (c, rest) ← decodeFirst (b :: rest)
    return c :: (← decodeStrictFrom fuel rest)

/-- Decoding that takes no byte that belongs to no character. -/
def decodeStrict (bs : Bytes) : Option Text := decodeStrictFrom bs.length bs

def replacement : CodePoint := Fin.ofNat 0x110000 0xFFFD

def secondRange (lead : ℕ) : ℕ × ℕ :=
  if lead = 0xE0 then (0xA0, 0xBF)
  else if lead = 0xED then (0x80, 0x9F)
  else if lead = 0xF0 then (0x90, 0xBF)
  else if lead = 0xF4 then (0x80, 0x8F)
  else (0x80, 0xBF)

def begun (lead : ℕ) : Bytes → ℕ
  | [] => 0
  | second :: rest =>
    if lead < 0xE0 ∨ 0xF4 < lead ∨ second.toNat < (secondRange lead).1 ∨
      (secondRange lead).2 < second.toNat then 0
    else if lead < 0xF0 then 1
    else
      match rest with
      | [] => 1
      | third :: _ => if 0x80 ≤ third.toNat ∧ third.toNat < 0xC0 then 2 else 1

def decodeReplaceFrom : ℕ → Bytes → Text
  | 0, _ => []
  | _ + 1, [] => []
  | fuel + 1, b :: rest =>
    match decodeFirst (b :: rest) with
    | some (c, rest) => c :: decodeReplaceFrom fuel rest
    | none => replacement :: decodeReplaceFrom fuel (rest.drop (begun b.toNat rest))

/-- Decoding that puts U+FFFD for bytes that only begin a character, and for every
    byte that belongs to none. -/
def decodeReplace (bs : Bytes) : Text := decodeReplaceFrom bs.length bs

example : decodeReplace [0x41, 0xE2, 0x82, 0x42, 0xFF, 0xF0, 0x9F, 0x98] =
    [ofChar 'A', replacement, ofChar 'B', replacement, replacement] := by decide

/- `\r\n` is one line end, so the `\n` behind a `\r` is left out. -/
def lineFeeds : Bool → Text → Text
  | _, [] => []
  | afterReturn, c :: cs =>
    if c.val = 0x0D then ofChar '\n' :: lineFeeds true cs
    else if c.val = 0x0A ∧ afterReturn = true then lineFeeds false cs
    else c :: lineFeeds false cs

/-- What a file opened as text reads: every line ends in `\n`. -/
def universalNewlines (t : Text) : Text := lineFeeds false t

example : universalNewlines (text "a\r\nb\rc\n\r") = text "a\nb\nc\n\n" := by decide

theorem universalNewlines_eq {t : Text} (noReturn : ∀ c ∈ t, c.val ≠ 0x0D) :
    universalNewlines t = t := by
  unfold universalNewlines
  induction t with
  | nil => rfl
  | cons c t ih =>
    have other := noReturn c List.mem_cons_self
    have later := ih fun d mem => noReturn d (List.mem_cons_of_mem c mem)
    simp [lineFeeds, other, later]

theorem lineFeeds_prefix {s t : Text} (oneLine : ofChar '\n' ∉ s) (found : s <+: lineFeeds false t) :
    s <+: t := by
  induction t generalizing s with
  | nil => exact found
  | cons c t ih =>
    match s with
    | [] => exact List.nil_prefix
    | d :: s =>
      rw [lineFeeds] at found
      split at found
      · exact absurd (List.cons_prefix_cons.mp found).1.symm fun same => oneLine (by simp [same])
      · simp only [Bool.false_eq_true, and_false, if_false] at found
        obtain ⟨rfl, later⟩ := List.cons_prefix_cons.mp found
        exact List.cons_prefix_cons.mpr
          ⟨rfl, ih (fun mem => oneLine (List.mem_cons_of_mem d mem)) later⟩

theorem lineFeeds_infix {s t : Text} (oneLine : ofChar '\n' ∉ s) {afterReturn : Bool}
    (found : s <:+: lineFeeds afterReturn t) : s <:+: t := by
  induction t generalizing afterReturn with
  | nil => exact found
  | cons c t ih =>
    have next := (List.suffix_cons c t).isInfix
    rw [lineFeeds] at found
    split at found
    · rcases List.infix_cons_iff.mp found with first | later
      · match s with
        | [] => exact List.nil_infix
        | d :: s =>
          obtain ⟨rfl, _⟩ := List.cons_prefix_cons.mp first
          exact absurd List.mem_cons_self oneLine
      · exact (ih later).trans next
    · split at found
      · exact (ih found).trans next
      · rcases List.infix_cons_iff.mp found with first | later
        · match s with
          | [] => exact List.nil_infix
          | d :: s =>
            obtain ⟨rfl, rest⟩ := List.cons_prefix_cons.mp first
            have same := lineFeeds_prefix (fun mem => oneLine (List.mem_cons_of_mem d mem)) rest
            exact (List.cons_prefix_cons.mpr ⟨rfl, same⟩).isInfix
        · exact (ih later).trans next

/-- The parts of the Unicode character database that a regular expression asks
    for: `\w`, and the value of a character that matches `\d`. -/
structure CharacterData where
  isWord : CodePoint → Bool
  digit : CodePoint → Option (Fin 10)

/-- `\s` -/
def isSpace (c : CodePoint) : Bool :=
  (9 ≤ c.val && c.val ≤ 13) || (28 ≤ c.val && c.val ≤ 32) || c.val == 0x85 || c.val == 0xA0 ||
    c.val == 0x1680 || (0x2000 ≤ c.val && c.val ≤ 0x200A) || c.val == 0x2028 || c.val == 0x2029 ||
    c.val == 0x202F || c.val == 0x205F || c.val == 0x3000

def isAsciiDigit (c : CodePoint) : Bool := 0x30 ≤ c.val && c.val ≤ 0x39

def asciiData : CharacterData where
  isWord c := isAsciiDigit c || (0x41 ≤ c.val && c.val ≤ 0x5A) || c.val == 0x5F ||
    (0x61 ≤ c.val && c.val ≤ 0x7A)
  digit c := if isAsciiDigit c then some (Fin.ofNat 10 (c.val - 0x30)) else none

theorem span_before {α : Type} {p : α → Bool} {xs ys : List α} (inside : ∀ x ∈ xs, p x = true)
    (ends : ∀ y ∈ ys.head?, p y = false) : (xs ++ ys).span p = (xs, ys) := by
  rw [List.span_eq_takeWhile_dropWhile, List.takeWhile_append_of_pos inside,
    List.dropWhile_append_of_pos inside]
  cases ys with
  | nil => simp
  | cons y ys =>
    have stop := ends y rfl
    simp [stop]

def ofDigits (ds : List (Fin 10)) : ℕ := ds.foldl (fun n d => 10 * n + d.val) 0

end UnicodeText
