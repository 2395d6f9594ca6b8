import AgentEcosystem.Text.UnicodeText
import Mathlib.Data.List.DropRight

/-!
Tokens between blanks, and letters in either case. `split` takes a text apart at
every run of blanks; `Spaced` says which texts come apart into given tokens.
-/
namespace UnicodeText

def Ascii (t : Text) : Prop := ∀ c ∈ t, c.val < 0x80

def upperAscii (c : CodePoint) : CodePoint :=
  if 0x61 ≤ c.val ∧ c.val ≤ 0x7A then Fin.ofNat 0x110000 (c.val - 0x20) else c

def lowerAscii (c : CodePoint) : CodePoint :=
  if 0x41 ≤ c.val ∧ c.val ≤ 0x5A then Fin.ofNat 0x110000 (c.val + 0x20) else c

/-- The parts of the Unicode character database that `str.upper`, `str.lower` and
    `\d` use. Nothing but ASCII is known of it. -/
structure StrData where
  upper : Text → Text
  lower : Text → Text
  digit : CodePoint → Option (Fin 10)
  upper_ascii : ∀ t, Ascii t → upper t = t.map upperAscii
  lower_ascii : ∀ t, Ascii t → lower t = t.map lowerAscii
  digit_ascii : ∀ c : CodePoint, c.val < 0x80 → digit c = asciiData.digit c

def asciiStrData : StrData where
  upper t := t.map upperAscii
  lower t := t.map lowerAscii
  digit := asciiData.digit
  upper_ascii _ _ := rfl
  lower_ascii _ _ := rfl
  digit_ascii _ _ := rfl

def SameLetters (s t : Text) : Prop := s.map upperAscii = t.map upperAscii

theorem upperAscii_val (c : CodePoint) :
    (upperAscii c).val = if 0x61 ≤ c.val ∧ c.val ≤ 0x7A then c.val - 0x20 else c.val := by
  unfold upperAscii
  split
  · exact Nat.mod_eq_of_lt (by omega)
  · rfl

theorem lowerAscii_val (c : CodePoint) :
    (lowerAscii c).val = if 0x41 ≤ c.val ∧ c.val ≤ 0x5A then c.val + 0x20 else c.val := by
  unfold lowerAscii
  split
  · exact Nat.mod_eq_of_lt (by omega)
  · rfl

theorem lowerAscii_upperAscii (c : CodePoint) : lowerAscii (upperAscii c) = lowerAscii c := by
  apply Fin.ext
  rw [lowerAscii_val, lowerAscii_val, upperAscii_val]
  split_ifs <;> omega

theorem upperAscii_lowerAscii (c : CodePoint) : upperAscii (lowerAscii c) = upperAscii c := by
  apply Fin.ext
  rw [upperAscii_val, upperAscii_val, lowerAscii_val]
  split_ifs <;> omega

theorem sameLetters_iff_lower {s t : Text} :
    SameLetters s t ↔ s.map lowerAscii = t.map lowerAscii := by
  have lower : ∀ t : Text, t.map lowerAscii = (t.map upperAscii).map lowerAscii := by
    intro t
    simp [Function.comp_def, lowerAscii_upperAscii]
  have upper : ∀ t : Text, t.map upperAscii = (t.map lowerAscii).map upperAscii := by
    intro t
    simp [Function.comp_def, upperAscii_lowerAscii]
  constructor
  · intro same
    rw [lower s, lower t, same]
  · intro same
    rw [SameLetters, upper s, upper t, same]

theorem SameLetters.symm {s t : Text} (same : SameLetters s t) : SameLetters t s := Eq.symm same

def Caseless (c : CodePoint) : Prop := upperAscii c = c ∧ lowerAscii c = c

instance (c : CodePoint) : Decidable (Caseless c) := inferInstanceAs (Decidable (_ ∧ _))

theorem eq_of_upper {c d : CodePoint} (caseless : Caseless c)
    (same : upperAscii c = upperAscii d) : c = d := by
  simp only [Caseless, Fin.ext_iff, upperAscii_val, lowerAscii_val] at *
  split_ifs at * <;> omega

theorem SameLetters.eq_of_caseless {s t : Text} (same : SameLetters s t)
    (caseless : ∀ c ∈ s, Caseless c) : s = t := by
  induction s generalizing t with
  | nil => simpa [SameLetters, eq_comm] using same
  | cons c s ih =>
    cases t with
    | nil => simp [SameLetters] at same
    | cons d t =>
      simp only [SameLetters, List.map_cons, List.cons.injEq] at same
      simp only [List.forall_mem_cons] at caseless
      rw [eq_of_upper caseless.1 same.1, ih same.2 caseless.2]

theorem SameLetters.length {s t : Text} (same : SameLetters s t) : s.length = t.length := by
  simpa using congrArg List.length same

/-- `str.strip()` -/
def strip (t : Text) : Text := (t.dropWhile isSpace).rdropWhile isSpace

/-- `token` is what was read of a token so far. -/
def splitFrom : Text → Text → List Text
  | token, [] => if token = [] then [] else [token]
  | token, c :: cs =>
    if isSpace c then
      if token = [] then splitFrom [] cs else token :: splitFrom [] cs
    else splitFrom (token ++ [c]) cs

/-- `str.split()` -/
def split (t : Text) : List Text := splitFrom [] t

example : split (text "  KILL\tALL ") = [text "KILL", text "ALL"] := by decide

def Blank (t : Text) : Prop := ∀ c ∈ t, isSpace c = true

def Solid (t : Text) : Prop := ∀ c ∈ t, isSpace c = false

inductive Spaced : List Text → Text → Prop where
  | nil {blanks : Text} (blank : Blank blanks) : Spaced [] blanks
  | cons {parts : List Text} {blanks token rest : Text} (blank : Blank blanks)
      (nonempty : token ≠ []) (solid : Solid token) (ends : ∀ c ∈ rest.head?, isSpace c = true)
      (later : Spaced parts rest) : Spaced (token :: parts) (blanks ++ (token ++ rest))

theorem splitFrom_blank {blanks : Text} (blank : Blank blanks) (t : Text) :
    splitFrom [] (blanks ++ t) = splitFrom [] t := by
  induction blanks with
  | nil => rfl
  | cons c cs ih =>
    have space := blank c List.mem_cons_self
    have later := ih fun d mem => blank d (List.mem_cons_of_mem c mem)
    simp [splitFrom, space, later]

theorem splitFrom_solid {token : Text} (solid : Solid token) (before t : Text) :
    splitFrom before (token ++ t) = splitFrom (before ++ token) t := by
  induction token generalizing before with
  | nil => simp
  | cons c cs ih =>
    have char := solid c List.mem_cons_self
    have later := ih (fun d mem => solid d (List.mem_cons_of_mem c mem)) (before ++ [c])
    simp [splitFrom, char, later]

theorem splitFrom_end {token rest : Text} (nonempty : token ≠ [])
    (ends : ∀ c ∈ rest.head?, isSpace c = true) :
    splitFrom token rest = token :: splitFrom [] rest := by
  cases rest with
  | nil => simp [splitFrom, nonempty]
  | cons c cs =>
    have space := ends c rfl
    simp [splitFrom, space, nonempty]

theorem Spaced.split_eq {parts : List Text} {t : Text} (spaced : Spaced parts t) :
    split t = parts := by
  induction spaced with
  | nil blank =>
    have none := splitFrom_blank blank []
    rw [List.append_nil] at none
    exact none
  | cons blank nonempty solid ends later ih =>
    rw [split, splitFrom_blank blank, splitFrom_solid solid, List.nil_append,
      splitFrom_end nonempty ends]
    rw [split] at ih
    rw [ih]

theorem blank_cons {c : CodePoint} {blanks : Text} (space : isSpace c = true)
    (blank : Blank blanks) : Blank (c :: blanks) :=
  List.forall_mem_cons.mpr ⟨space, blank⟩

theorem Spaced.behind {parts : List Text} {t : Text} (spaced : Spaced parts t) {c : CodePoint}
    (space : isSpace c = true) : Spaced parts (c :: t) := by
  cases spaced with
  | nil blank => exact .nil (blank_cons space blank)
  | cons blank nonempty solid ends later =>
    exact .cons (blank_cons space blank) nonempty solid ends later

theorem Spaced.first {parts : List Text} {token rest : Text} (nonempty : token ≠ [])
    (solid : Solid token) (ends : ∀ c ∈ rest.head?, isSpace c = true) (later : Spaced parts rest) :
    Spaced (token :: parts) (token ++ rest) := by
  have none : Blank [] := by simp [Blank]
  exact .cons none nonempty solid ends later

theorem spaced_splitFrom {token : Text} (solid : Solid token) (t : Text) :
    Spaced (splitFrom token t) (token ++ t) := by
  induction t generalizing token with
  | nil =>
    by_cases empty : token = []
    · simp only [splitFrom, empty, if_true, List.append_nil]
      exact .nil (by simp [Blank])
    · simp only [splitFrom, empty, if_false]
      exact .first empty solid (by simp) (.nil (by simp [Blank]))
  | cons c cs ih =>
    by_cases space : isSpace c = true
    · have nothing : Solid [] := by simp [Solid]
      have later := (ih nothing).behind space
      by_cases empty : token = []
      · simp only [splitFrom, space, empty, if_true]
        exact later
      · simp only [splitFrom, space, empty, if_true, if_false]
        exact .first empty solid (by simpa using space) later
    · have char : Solid (token ++ [c]) :=
        List.forall_mem_append.mpr ⟨solid, by simpa using space⟩
      have later := ih char
      simp only [splitFrom, space]
      simpa using later

/-- Every text comes apart into the tokens that `split` gives, and into no others. -/
theorem split_iff_spaced {parts : List Text} {t : Text} : split t = parts ↔ Spaced parts t := by
  constructor
  · rintro rfl
    exact spaced_splitFrom (by simp [Solid]) t
  · exact Spaced.split_eq

theorem Spaced.subset {parts : List Text} {t : Text} (spaced : Spaced parts t) :
    ∀ token ∈ parts, token ⊆ t := by
  induction spaced with
  | nil blank => simp
  | cons blank nonempty solid ends later ih =>
    intro token mem c inside
    simp only [List.mem_append]
    rcases List.mem_cons.mp mem with rfl | behind
    · exact .inr (.inl inside)
    · exact .inr (.inr (ih token behind inside))

theorem Spaced.solid {parts : List Text} {t : Text} (spaced : Spaced parts t) :
    ∀ token ∈ parts, Solid token := by
  induction spaced with
  | nil blank => simp
  | cons blank nonempty solid ends later ih =>
    intro token mem
    rcases List.mem_cons.mp mem with rfl | behind
    · exact solid
    · exact ih token behind

theorem splitFrom_trailing {blanks : Text} (blank : Blank blanks) (token t : Text) :
    splitFrom token (t ++ blanks) = splitFrom token t := by
  induction t generalizing token with
  | nil =>
    have none := splitFrom_blank blank []
    rw [List.append_nil] at none
    by_cases empty : token = []
    · simp only [List.nil_append, empty, none]
    · have ends : ∀ c ∈ blanks.head?, isSpace c = true := by
        intro c head
        exact blank c (List.mem_of_mem_head? head)
      rw [List.nil_append, splitFrom_end empty ends, none]
      simp [splitFrom, empty]
  | cons c cs ih => simp only [List.cons_append, splitFrom, ih]

theorem splitFrom_append_blank {c : CodePoint} (space : isSpace c = true) (token s t : Text) :
    splitFrom token (s ++ c :: t) = splitFrom token s ++ splitFrom [] t := by
  induction s generalizing token with
  | nil =>
    by_cases empty : token = []
    · simp [splitFrom, space, empty]
    · simp [splitFrom, space, empty]
  | cons d s ih =>
    by_cases space' : isSpace d = true
    · by_cases empty : token = []
      · simp [splitFrom, space', empty, ih]
      · simp [splitFrom, space', empty, ih]
    · simp [splitFrom, space', ih]

theorem split_append_blank {c : CodePoint} (space : isSpace c = true) (s t : Text) :
    split (s ++ c :: t) = split s ++ split t := splitFrom_append_blank space [] s t

theorem split_dropWhile (t : Text) : split (t.dropWhile isSpace) = split t := by
  have blank : Blank (t.takeWhile isSpace) := fun c mem => List.mem_takeWhile_imp mem
  have leading := splitFrom_blank blank (t.dropWhile isSpace)
  rw [List.takeWhile_append_dropWhile] at leading
  exact leading.symm

theorem split_strip (t : Text) : split (strip t) = split t := by
  have blank : Blank ((t.dropWhile isSpace).rtakeWhile isSpace) :=
    fun c mem => List.mem_rtakeWhile_imp mem
  have trailing := splitFrom_trailing blank [] (strip t)
  rw [strip, List.rdropWhile_append_rtakeWhile] at trailing
  rw [← split_dropWhile t]
  exact trailing.symm

theorem strip_append {t : Text} (solid : ∃ c ∈ t, isSpace c = false) (rest : Text) :
    strip (t ++ rest) = if rest.rdropWhile isSpace = [] then strip t
      else t.dropWhile isSpace ++ rest.rdropWhile isSpace := by
  have kept : (t.dropWhile isSpace).isEmpty = false := by
    obtain ⟨c, mem, char⟩ := solid
    simp only [List.isEmpty_eq_false_iff, ne_eq, List.dropWhile_eq_nil_iff, not_forall]
    exact ⟨c, mem, by simp [char]⟩
  rw [strip, List.dropWhile_append, kept, if_neg Bool.false_ne_true, List.rdropWhile,
    List.reverse_append, List.dropWhile_append]
  by_cases blank : rest.rdropWhile isSpace = []
  · have nothing : (rest.reverse.dropWhile isSpace).isEmpty = true := by
      rw [List.rdropWhile, List.reverse_eq_nil_iff] at blank
      rw [blank]
      rfl
    rw [if_pos nothing, if_pos blank]
    rfl
  · have something : (rest.reverse.dropWhile isSpace).isEmpty = false := by
      rw [List.rdropWhile, List.reverse_eq_nil_iff] at blank
      rw [List.isEmpty_eq_false_iff]
      exact blank
    rw [something, if_neg Bool.false_ne_true, if_neg blank, List.reverse_append,
      List.reverse_reverse]
    rfl

theorem strip_subset (t : Text) : strip t ⊆ t := by
  intro c mem
  have inner := (List.rdropWhile_prefix isSpace (t.dropWhile isSpace)).subset mem
  exact (List.dropWhile_suffix isSpace).subset inner

theorem strip_solid {t : Text} (solid : Solid t) : strip t = t := by
  have kept : t.dropWhile isSpace = t := by
    cases t with
    | nil => rfl
    | cons c t => simp [solid c List.mem_cons_self]
  have last : ∀ nonempty : t ≠ [], ¬ isSpace (t.getLast nonempty) = true := by
    intro nonempty
    simp [solid _ (List.getLast_mem nonempty)]
  rw [strip, kept, List.rdropWhile_eq_self_iff]
  exact last

theorem split_ne_nil {t : Text} (nonempty : strip t ≠ []) : split (strip t) ≠ [] := by
  intro none
  cases split_iff_spaced.mp none with
  | nil blank =>
    have last := List.rdropWhile_last_not isSpace (t.dropWhile isSpace) nonempty
    exact last (blank _ (List.getLast_mem nonempty))

end UnicodeText
