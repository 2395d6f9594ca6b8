import AgentEcosystem.Json.JsonRoundTrip
import Mathlib.Algebra.Group.Nat.Even

/-!
String literals in the source text of a scripting language: where a literal ends,
and what it stands for. A backslash takes the character behind it along.
-/
namespace PythonSource
open JsonText UnicodeText

def backslash : CodePoint := ofChar '\\'

def behind (piece : Text) (read : Text × Text) : Text × Text := (piece ++ read.1, read.2)

/-- The body of a literal between triple quotes, and the text behind the closing ones. -/
def longBody (q : CodePoint) : Text → Option (Text × Text)
  | c :: d :: rest =>
    if c = backslash then (longBody q rest).map (behind [c, d])
    else if c = q ∧ d = q ∧ rest.head? = some q then some ([], rest.tail)
    else (longBody q (d :: rest)).map (behind [c])
  | _ => none

/-- The body of a literal up to the next quote, which stands on the same line. -/
def shortBody (q : CodePoint) : Text → Option (Text × Text)
  | [] => none
  | [c] => if c = q then some ([], []) else none
  | c :: d :: rest =>
    if c = q then some ([], d :: rest)
    else if c = ofChar '\n' then none
    else if c = backslash then (shortBody q rest).map (behind [c, d])
    else (shortBody q (d :: rest)).map (behind [c])

/-- The literal a text begins with, from its opening quote on. -/
def literal : Text → Option (Text × Text)
  | [] => none
  | q :: rest =>
    if rest.take 2 = [q, q] then longBody q (rest.drop 2) else shortBody q rest

example : literal (text "'a\\'b' + c") = some (text "a\\'b", text " + c") := by decide

example : literal (text "\"\"\"a\\\"\"\"\nb\"\"\"\"\"") = some (text "a\\\"\"\"\nb", text "\"\"") := by
  decide

theorem longBody_suffix {q : CodePoint} {s body after : Text}
    (read : longBody q s = some (body, after)) : after <:+ s := by
  induction s using longBody.induct q generalizing body with
  | case1 d s ih =>
    rw [longBody, if_pos rfl] at read
    obtain ⟨⟨body, _⟩, later, same⟩ := Option.map_eq_some_iff.mp read
    cases same
    exact ((ih later).trans (List.suffix_cons d s)).trans (List.suffix_cons _ _)
  | case2 c d s escape closing =>
    rw [longBody, if_neg escape, if_pos closing] at read
    cases read
    exact ((List.tail_suffix s).trans (List.suffix_cons d s)).trans (List.suffix_cons _ _)
  | case3 c d s escape going ih =>
    rw [longBody, if_neg escape, if_neg going] at read
    obtain ⟨⟨body, _⟩, later, same⟩ := Option.map_eq_some_iff.mp read
    cases same
    exact (ih later).trans (List.suffix_cons c _)
  | case4 s short =>
    rw [longBody] at read
    · cases read
    · exact short

theorem shortBody_suffix {q : CodePoint} {s body after : Text}
    (read : shortBody q s = some (body, after)) : after <:+ s := by
  induction s using shortBody.induct q generalizing body with
  | case1 => cases read
  | case2 =>
    rw [shortBody, if_pos rfl] at read
    cases read
    exact List.nil_suffix
  | case3 c other =>
    rw [shortBody, if_neg other] at read
    cases read
  | case4 d s =>
    rw [shortBody, if_pos rfl] at read
    cases read
    exact List.suffix_cons _ _
  | case5 d s other =>
    rw [shortBody, if_neg other, if_pos rfl] at read
    cases read
  | case6 d s other line ih =>
    rw [shortBody, if_neg other, if_neg line, if_pos rfl] at read
    obtain ⟨⟨body, _⟩, later, same⟩ := Option.map_eq_some_iff.mp read
    cases same
    exact ((ih later).trans (List.suffix_cons d s)).trans (List.suffix_cons _ _)
  | case7 c d s other line escape ih =>
    rw [shortBody, if_neg other, if_neg line, if_neg escape] at read
    obtain ⟨⟨body, _⟩, later, same⟩ := Option.map_eq_some_iff.mp read
    cases same
    exact (ih later).trans (List.suffix_cons c _)

theorem literal_suffix {s body after : Text} (read : literal s = some (body, after)) :
    after <:+ s := by
  match s with
  | [] => cases read
  | q :: rest =>
    rw [literal] at read
    split at read
    · exact ((longBody_suffix read).trans (List.drop_suffix 2 rest)).trans (List.suffix_cons q rest)
    · exact (shortBody_suffix read).trans (List.suffix_cons q rest)

def slashes (t : Text) : ℕ := (t.reverse.takeWhile (· = backslash)).length

/-- Three quotes, of which the first is not escaped. -/
def Closes (q : CodePoint) (t : Text) : Prop :=
  ∃ before after, t = before ++ [q, q, q] ++ after ∧ Even (slashes before)

theorem slashes_le (t : Text) : slashes t ≤ t.length := by
  have short := List.Sublist.length_le (List.takeWhile_sublist (· = backslash) (l := t.reverse))
  rwa [List.length_reverse] at short

theorem slashes_append (s t : Text) :
    slashes (s ++ t) = if slashes t = t.length then slashes s + slashes t else slashes t := by
  unfold slashes
  rw [List.reverse_append, List.takeWhile_append, List.length_reverse]
  split
  · rename_i all
    rw [List.length_append, List.length_reverse, all, Nat.add_comm]
  · rfl

theorem slashes_plain {c : CodePoint} (plain : c ≠ backslash) (s t : Text) :
    slashes (s ++ c :: t) = slashes t := by
  have one : slashes [c] = 0 := by simp [slashes, plain]
  have head : slashes (c :: t) = slashes t := by
    have split := slashes_append [c] t
    rw [one, Nat.zero_add, ite_self] at split
    exact split
  have short := slashes_le t
  have unfinished : slashes (c :: t) ≠ (c :: t).length := by
    rw [head, List.length_cons]
    omega
  rw [slashes_append, if_neg unfinished, head]

/- An escape leaves the parity as it was. -/
theorem slashes_escape (d : CodePoint) (t : Text) :
    Even (slashes (backslash :: d :: t)) ↔ Even (slashes t) := by
  have two : Even (slashes [backslash, d]) := by
    by_cases same : d = backslash
    · subst same
      decide
    · have none := slashes_plain same [backslash] []
      simp only [List.singleton_append] at none
      rw [none]
      decide
  have split := slashes_append [backslash, d] t
  simp only [List.cons_append, List.nil_append] at split
  rw [split]
  split
  · rw [Nat.even_add]
    simp [two]
  · rfl

section Closing
variable {q : CodePoint}

theorem not_closes {s : Text} (absent : q ∉ s) : ¬ Closes q s := by
  rintro ⟨before, after, rfl, _⟩
  simp at absent

theorem closes_escape (notSlash : q ≠ backslash) (d : CodePoint) (s : Text) :
    Closes q (backslash :: d :: s) ↔ Closes q s := by
  constructor
  · rintro ⟨before, after, split, even⟩
    match before with
    | [] =>
      simp only [List.nil_append, List.cons_append, List.cons.injEq] at split
      exact absurd split.1.symm notSlash
    | [b] =>
      simp only [List.cons_append, List.cons.injEq] at split
      rw [← split.1] at even
      exact absurd even (by decide)
    | b :: e :: before =>
      simp only [List.cons_append, List.cons.injEq] at split
      obtain ⟨rfl, rfl, rest⟩ := split
      exact ⟨before, after, by simpa using rest, (slashes_escape _ _).mp even⟩
  · rintro ⟨before, after, rfl, even⟩
    exact ⟨backslash :: d :: before, after, rfl, (slashes_escape _ _).mpr even⟩

theorem closes_plain {c : CodePoint} (plain : c ≠ backslash) (s : Text) :
    Closes q (c :: s) ↔ (c = q ∧ [q, q] <+: s) ∨ Closes q s := by
  constructor
  · rintro ⟨before, after, split, even⟩
    cases before with
    | nil =>
      simp only [List.nil_append, List.cons_append, List.cons.injEq] at split
      exact .inl ⟨split.1, after, by simpa using split.2.symm⟩
    | cons b before =>
      simp only [List.cons_append, List.cons.injEq] at split
      obtain ⟨rfl, rest⟩ := split
      rw [← List.nil_append (c :: before), slashes_plain plain] at even
      exact .inr ⟨before, after, by simpa using rest, even⟩
  · rintro (⟨rfl, after, rfl⟩ | ⟨before, after, rfl, even⟩)
    · exact ⟨[], after, rfl, by decide⟩
    · refine ⟨c :: before, after, rfl, ?_⟩
      rw [← List.nil_append (c :: before), slashes_plain plain]
      exact even

theorem longBody_escape (d : CodePoint) (s : Text) :
    longBody q (backslash :: d :: s) = (longBody q s).map (behind [backslash, d]) := by
  rw [longBody, if_pos rfl]

theorem longBody_plain {c : CodePoint} (plain : c ≠ backslash) {s : Text}
    (opened : ¬ (c = q ∧ [q, q] <+: s)) :
    longBody q (c :: s) = (longBody q s).map (behind [c]) := by
  match s with
  | [] => rfl
  | d :: s =>
    have going : ¬ (c = q ∧ d = q ∧ s.head? = some q) := by
      rintro ⟨first, rfl, third⟩
      obtain ⟨s, rfl⟩ := List.head?_eq_some_iff.mp third
      exact opened ⟨first, s, rfl⟩
    rw [longBody, if_neg plain, if_neg going]

theorem longBody_quotes (notSlash : q ≠ backslash) (s : Text) :
    longBody q ([q, q, q] ++ s) = some ([], s) := by
  simp [longBody, notSlash]

theorem behind_behind (s t : Text) (read : Option (Text × Text)) :
    (read.map (behind t)).map (behind s) = read.map (behind (s ++ t)) := by
  cases read <;> simp [behind]

/- Quotes do not go beyond another character. -/
theorem two_quotes {stop : CodePoint} (unquoted : stop ≠ q) {s t : Text}
    (quotes : [q, q] <+: s ++ stop :: t) : [q, q] <+: s := by
  match s with
  | [] => exact absurd (List.cons_prefix_cons.mp quotes).1.symm unquoted
  | [d] =>
    obtain ⟨_, second⟩ := List.cons_prefix_cons.mp quotes
    exact absurd (List.cons_prefix_cons.mp second).1.symm unquoted
  | d :: e :: s =>
    obtain ⟨rfl, second⟩ := List.cons_prefix_cons.mp quotes
    obtain ⟨rfl, _⟩ := List.cons_prefix_cons.mp second
    exact ⟨s, rfl⟩

theorem longBody_open (notSlash : q ≠ backslash) (stop : CodePoint) (plain : stop ≠ backslash)
    (unquoted : stop ≠ q) (s t : Text) (opened : ¬ Closes q s) :
    longBody q (s ++ stop :: t) = (longBody q t).map (behind (s ++ [stop])) := by
  induction s using longBody.induct q with
  | case1 d s ih =>
    rw [closes_escape notSlash] at opened
    simp only [List.cons_append, longBody_escape, ih opened, behind_behind, List.nil_append]
  | case2 c d s _ closing =>
    obtain ⟨rfl, rfl, third⟩ := closing
    obtain ⟨s, rfl⟩ := List.head?_eq_some_iff.mp third
    exact absurd ⟨[], s, rfl, by decide⟩ opened
  | case3 c d s notEscape _ ih =>
    rw [closes_plain notEscape, not_or] at opened
    have going : ¬ (c = q ∧ [q, q] <+: d :: s ++ stop :: t) := fun closing =>
      opened.1 ⟨closing.1, two_quotes unquoted closing.2⟩
    rw [List.cons_append, longBody_plain notEscape going, ih opened.2, behind_behind]
    rfl
  | case4 s short =>
    match s with
    | [] => exact longBody_plain plain fun closing => unquoted closing.1
    | [c] =>
      by_cases escape : c = backslash
      · subst escape
        exact longBody_escape stop t
      · have going : ¬ (c = q ∧ [q, q] <+: stop :: t) := fun closing =>
          unquoted (List.cons_prefix_cons.mp closing.2).1.symm
        have stopped : ¬ (stop = q ∧ [q, q] <+: t) := fun closing => unquoted closing.1
        rw [List.singleton_append, longBody_plain escape going, longBody_plain plain stopped,
          behind_behind]
    | c :: d :: s => exact absurd rfl (short c d s)

/-- A text that closes the literal does so itself, whatever follows. -/
theorem longBody_closed (notSlash : q ≠ backslash) {s : Text} (closes : Closes q s) (t : Text) :
    ∃ body after, s = body ++ [q, q, q] ++ after ∧
      longBody q (s ++ t) = some (body, after ++ t) := by
  induction s using longBody.induct q with
  | case1 d s ih =>
    rw [closes_escape notSlash] at closes
    obtain ⟨body, after, rfl, read⟩ := ih closes
    refine ⟨backslash :: d :: body, after, rfl, ?_⟩
    simp only [List.cons_append] at read ⊢
    rw [longBody_escape, read]
    rfl
  | case2 c d s _ closing =>
    obtain ⟨rfl, rfl, third⟩ := closing
    obtain ⟨s, rfl⟩ := List.head?_eq_some_iff.mp third
    exact ⟨[], s, rfl, longBody_quotes notSlash (s ++ t)⟩
  | case3 c d s notEscape going ih =>
    have further : Closes q (d :: s) := by
      rcases (closes_plain notEscape _).mp closes with ⟨first, second⟩ | further
      · obtain ⟨rfl, third⟩ := List.cons_prefix_cons.mp second
        obtain ⟨s, rfl⟩ := third
        exact absurd ⟨first, rfl, rfl⟩ going
      · exact further
    obtain ⟨body, after, split, read⟩ := ih further
    refine ⟨c :: body, after, by simp [split], ?_⟩
    have opened : ¬ (c = q ∧ [q, q] <+: d :: s ++ t) := by
      rintro ⟨first, second⟩
      obtain ⟨rfl, third⟩ := List.cons_prefix_cons.mp second
      match s with
      | [] =>
        obtain ⟨before, after, small, _⟩ := further
        have long := congrArg List.length small
        simp at long
        omega
      | e :: s =>
        obtain ⟨rfl, _⟩ := List.cons_prefix_cons.mp third
        exact going ⟨first, rfl, rfl⟩
    rw [List.cons_append, longBody_plain notEscape opened, read]
    rfl
  | case4 s short =>
    obtain ⟨before, after, split, _⟩ := closes
    match before with
    | [] => exact absurd split (short q q _)
    | [b] => exact absurd split (short b q _)
    | b :: c :: before => exact absurd split (short b c _)

end Closing

def letterEscapes : List (Char × Char) :=
  [('\\', '\\'), ('\'', '\''), ('"', '"'), ('a', '\x07'), ('b', '\x08'), ('f', '\x0c'), ('n', '\n'),
    ('r', '\r'), ('t', '\t'), ('v', '\x0b')]

def hexWidth (letter : CodePoint) : Option ℕ :=
  if letter = ofChar 'x' then some 2
  else if letter = ofChar 'u' then some 4
  else if letter = ofChar 'U' then some 8
  else none

def hexNumber : ℕ → ℕ → Text → Option (ℕ × Text)
  | 0, n, cs => some (n, cs)
  | _ + 1, _, [] => none
  | width + 1, n, c :: cs =>
    match hexValue c with
    | some digit => hexNumber width (n * 16 + digit) cs
    | none => none

def isOctal (c : CodePoint) : Bool := 0x30 ≤ c.val && c.val ≤ 0x37

def codePoint (n : ℕ) : Option Text := if h : n < 0x110000 then some [⟨n, h⟩] else none

section Escapes
variable (names : Text → Option CodePoint)

/-- What stands behind a backslash: what it means, and the rest. An unknown escape means
    itself, and one that is cut short nothing. -/
def readEscape : Text → Option (Text × Text)
  | [] => none
  | e :: rest =>
    if e = ofChar '\n' then some ([], rest)
    else if isOctal e then
      let digits := (e :: rest).takeWhile isOctal |>.take 3
      (codePoint (digits.foldl (fun n d => n * 8 + (d.val - 0x30)) 0)).map
        fun c => (c, (e :: rest).drop digits.length)
    else if e = ofChar 'N' then
      match rest with
      | brace :: named =>
        if brace = ofChar '\x7b' then
          match named.dropWhile (· ≠ ofChar '\x7d') with
          | _ :: after => (names (named.takeWhile (· ≠ ofChar '\x7d'))).map fun c => ([c], after)
          | [] => none
        else none
      | [] => none
    else
      match hexWidth e with
      | some width => do
        let (n, after) ← hexNumber width 0 rest
        return (← codePoint n, after)
      | none =>
        match letterEscapes.find? fun pair => ofChar pair.1 == e with
        | some pair => some ([ofChar pair.2], rest)
        | none => some ([backslash, e], rest)

def readPiece : Text → Option (Text × Text)
  | [] => none
  | c :: rest => if c = backslash then readEscape names rest else some ([c], rest)

def unescapeFrom : ℕ → Text → Option Text
  | _, [] => some []
  | 0, _ :: _ => none
  | fuel + 1, c :: cs => do
    let (piece, rest) ← readPiece names (c :: cs)
    return piece ++ (← unescapeFrom fuel rest)

/-- The string a body stands for, given the characters that have names. -/
def unescape (body : Text) : Option Text := unescapeFrom names body.length body

def literalValue (source : Text) : Option Text := do
  let (body, _) ← literal source
  unescape names body

end Escapes

example : literalValue (fun _ => none) (text "'\\x41\\102\\u00e9\\n\\q\\''") =
    some (text "ABé\n\\q'") := by decide

section Pieces
variable {names : Text → Option CodePoint} {q : CodePoint}

/-- A piece of a body that is read as a whole and stands for the value. -/
structure Piece (names : Text → Option CodePoint) (q : CodePoint) (piece value : Text) : Prop where
  nonempty : 0 < piece.length
  inside : ∀ t, shortBody q (piece ++ t) = (shortBody q t).map (behind piece)
  read : ∀ t, readPiece names (piece ++ t) = some (value, t)

/-- A body made of pieces, and what it stands for. -/
inductive Spells (names : Text → Option CodePoint) (q : CodePoint) : Text → Text → Prop
  | nil : Spells names q [] []
  | cons {piece c body value : Text} : Piece names q piece c → Spells names q body value →
      Spells names q (piece ++ body) (c ++ value)

theorem Spells.append {body value body' value' : Text} (first : Spells names q body value)
    (second : Spells names q body' value') : Spells names q (body ++ body') (value ++ value') := by
  induction first with
  | nil => exact second
  | cons piece _ ih =>
    rw [List.append_assoc, List.append_assoc]
    exact .cons piece ih

theorem Piece.spells {piece value : Text} (h : Piece names q piece value) :
    Spells names q piece value := by
  have one := Spells.cons h .nil
  rwa [List.append_nil, List.append_nil] at one

theorem spells_flatMap {f g : CodePoint → Text} {s : Text}
    (each : ∀ c ∈ s, Spells names q (f c) (g c)) :
    Spells names q (s.flatMap f) (s.flatMap g) := by
  induction s with
  | nil => exact .nil
  | cons c s ih =>
    rw [List.flatMap_cons, List.flatMap_cons]
    exact (each c (by simp)).append (ih fun d mem => each d (by simp [mem]))

theorem Spells.shortBody {body value : Text} (h : Spells names q body value) (rest : Text) :
    shortBody q (body ++ q :: rest) = some (body, rest) := by
  induction h with
  | nil => cases rest <;> simp [PythonSource.shortBody]
  | cons piece _ ih => simp [piece.inside, ih, behind]

theorem Spells.unescapeFrom {body value : Text} (h : Spells names q body value) {fuel : ℕ}
    (enough : body.length ≤ fuel) : unescapeFrom names fuel body = some value := by
  induction h generalizing fuel with
  | nil => cases fuel <;> rfl
  | @cons piece c body value first _ ih =>
    have size := first.nonempty
    rw [List.length_append] at enough
    obtain ⟨fuel, rfl⟩ : ∃ k, fuel = k + 1 := ⟨fuel - 1, by omega⟩
    have later := @ih fuel (by omega)
    have read := first.read body
    match piece with
    | d :: piece =>
      rw [List.cons_append] at read ⊢
      rw [PythonSource.unescapeFrom, read]
      simp [later]

theorem Spells.unquoted {body value : Text} (h : Spells names q body value) : q ∉ body.head? := by
  intro opens
  obtain ⟨body, rfl⟩ := List.head?_eq_some_iff.mp opens
  have whole := h.shortBody []
  cases body <;> simp [PythonSource.shortBody] at whole

/-- Whatever follows but a third quote, the literal stands for what its body spells. -/
theorem Spells.literalValue {body value : Text} (h : Spells names q body value) {rest : Text}
    (apart : q ∉ rest.head?) : literalValue names (q :: body ++ q :: rest) = some value := by
  have unquoted := h.unquoted
  have short : (body ++ q :: rest).take 2 ≠ [q, q] := by
    match body with
    | [] => cases rest <;> simp_all
    | c :: body => simp_all
  simp [PythonSource.literalValue, literal, short, h.shortBody rest, unescape,
    h.unescapeFrom le_rfl]

theorem inside_plain {s : Text} (plain : ∀ c ∈ s, c ≠ q ∧ c ≠ ofChar '\n' ∧ c ≠ backslash)
    (t : Text) : PythonSource.shortBody q (s ++ t) = (PythonSource.shortBody q t).map (behind s) := by
  induction s with
  | nil => cases read : PythonSource.shortBody q t <;> simp [read, behind]
  | cons c s ih =>
    obtain ⟨unquoted, line, notSlash⟩ := plain c (by simp)
    have later := ih fun d mem => plain d (by simp [mem])
    have one : PythonSource.shortBody q (c :: (s ++ t)) =
        (PythonSource.shortBody q (s ++ t)).map (behind [c]) := by
      cases s ++ t with
      | nil => simp [PythonSource.shortBody, unquoted]
      | cons d rest => rw [PythonSource.shortBody, if_neg unquoted, if_neg line, if_neg notSlash]
    rw [List.cons_append, one, later, behind_behind]
    rfl

theorem piece_plain {c : CodePoint} (unquoted : c ≠ q) (line : c ≠ ofChar '\n')
    (plain : c ≠ backslash) : Piece names q [c] [c] where
  nonempty := by simp
  inside := inside_plain (by simp [unquoted, line, plain])
  read t := by simp [readPiece, plain]

theorem inside_escape (notSlash : q ≠ backslash) (d : CodePoint) (t : Text) :
    PythonSource.shortBody q ([backslash, d] ++ t) =
      (PythonSource.shortBody q t).map (behind [backslash, d]) := by
  have line : backslash ≠ ofChar '\n' := by decide
  simp only [List.cons_append, List.nil_append]
  rw [PythonSource.shortBody, if_neg (Ne.symm notSlash), if_neg line, if_pos rfl]

theorem piece_letter (notSlash : q ≠ backslash) {pair : Char × Char}
    (known : pair ∈ letterEscapes) :
    Piece names q [backslash, ofChar pair.1] [ofChar pair.2] where
  nonempty := by simp
  inside := inside_escape notSlash (ofChar pair.1)
  read t := by
    simp only [letterEscapes, List.mem_cons, List.not_mem_nil, or_false] at known
    rcases known with rfl | rfl | rfl | rfl | rfl | rfl | rfl | rfl | rfl | rfl <;> rfl

theorem hexNumber_digits {n : ℕ} (small : n < 0x10000) (rest : Text) :
    hexNumber 4 0 ([hexDigit (n / 4096 % 16), hexDigit (n / 256 % 16), hexDigit (n / 16 % 16),
      hexDigit (n % 16)] ++ rest) = some (n, rest) := by
  have digit : ∀ k, hexValue (hexDigit (k % 16)) = some (k % 16) := fun k =>
    hexValue_hexDigit (Nat.mod_lt k (by decide))
  simp only [List.cons_append, List.nil_append, hexNumber, digit]
  congr 2
  omega

theorem hexDigit_plain {d : ℕ} (small : d < 16) :
    hexDigit d ≠ ofChar '"' ∧ hexDigit d ≠ ofChar '\n' ∧ hexDigit d ≠ backslash := by
  have all : ∀ d : Fin 16, hexDigit d ≠ ofChar '"' ∧ hexDigit d ≠ ofChar '\n' ∧
      hexDigit d ≠ backslash := by decide
  exact all ⟨d, small⟩

theorem piece_unicode {n : ℕ} (small : n < 0x10000) :
    Piece names (ofChar '"') (unicodeEscape n) [Fin.ofNat 0x110000 n] where
  nonempty := by simp [unicodeEscape, text]
  inside t := by
    have digits := inside_plain (q := ofChar '"') (s := [hexDigit (n / 4096 % 16),
      hexDigit (n / 256 % 16), hexDigit (n / 16 % 16), hexDigit (n % 16)])
      (by simp [hexDigit_plain, Nat.mod_lt]) t
    have shape : unicodeEscape n = [backslash, ofChar 'u'] ++ [hexDigit (n / 4096 % 16),
      hexDigit (n / 256 % 16), hexDigit (n / 16 % 16), hexDigit (n % 16)] := rfl
    rw [shape, List.append_assoc, inside_escape (by decide), digits, behind_behind]
  read t := by
    have digits : hexNumber 4 0 _ = _ := hexNumber_digits small t
    have shape : readPiece names (unicodeEscape n ++ t) = (do
      let (m, after) ← hexNumber 4 0 ([hexDigit (n / 4096 % 16), hexDigit (n / 256 % 16),
        hexDigit (n / 16 % 16), hexDigit (n % 16)] ++ t)
      return (← codePoint m, after)) := rfl
    have inRange : n < 0x110000 := by omega
    have same : (⟨n, inRange⟩ : CodePoint) = Fin.ofNat 0x110000 n := by
      apply Fin.ext
      exact (Nat.mod_eq_of_lt inRange).symm
    rw [shape, digits]
    simp [codePoint, inRange, same]

end Pieces

end PythonSource
