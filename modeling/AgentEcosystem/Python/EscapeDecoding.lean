import AgentEcosystem.Python.StringLiterals
import Mathlib.Data.List.TakeWhile

/-!
Which bodies of a literal are read to their end. A malformed escape stops the reader, and
a line end keeps the escapes in front of it apart from what follows.
-/
namespace PythonSource
open JsonText UnicodeText

section Decoding
variable {names : Text → Option CodePoint}

/-- Read to the end, one piece after another. -/
inductive Decodes (names : Text → Option CodePoint) : Text → Prop
  | nil : Decodes names []
  | piece {s value rest : Text} : readPiece names s = some (value, rest) → Decodes names rest →
      Decodes names s

theorem hexNumber_suffix {width n m : ℕ} {s rest : Text}
    (read : hexNumber width n s = some (m, rest)) : rest <:+ s := by
  induction width generalizing n s with
  | zero =>
    cases read
    exact List.suffix_rfl
  | succ width ih =>
    match s with
    | [] => cases read
    | c :: s =>
      rw [hexNumber] at read
      split at read
      · exact (ih read).trans (List.suffix_cons c s)
      · cases read

theorem readEscape_suffix {s value rest : Text} (read : readEscape names s = some (value, rest)) :
    rest <:+ s := by
  match s with
  | [] => cases read
  | e :: s =>
    have next := List.suffix_cons e s
    unfold readEscape at read
    dsimp only at read
    split at read
    · cases read
      exact next
    · split at read
      · obtain ⟨c, _, same⟩ := Option.map_eq_some_iff.mp read
        cases same
        exact List.drop_suffix _ _
      · split at read
        · split at read
          · split at read
            · split at read
              · rename_i brace named _ _ closing after found
                obtain ⟨c, _, same⟩ := Option.map_eq_some_iff.mp read
                cases same
                have inside := (List.suffix_cons closing rest).trans (found ▸ List.dropWhile_suffix _)
                exact (inside.trans (List.suffix_cons brace named)).trans next
              · cases read
            · cases read
          · cases read
        · split at read
          · obtain ⟨⟨n, after⟩, digits, read⟩ := Option.bind_eq_some_iff.mp read
            obtain ⟨c, _, read⟩ := Option.bind_eq_some_iff.mp read
            cases read
            exact (hexNumber_suffix digits).trans next
          · split at read <;>
            · cases read
              exact next

theorem readPiece_shorter {s value rest : Text} (read : readPiece names s = some (value, rest)) :
    rest.length < s.length := by
  match s with
  | [] => cases read
  | c :: s =>
    rw [readPiece] at read
    split at read
    · have size := (readEscape_suffix read).length_le
      simpa using Nat.lt_succ_of_le size
    · cases read
      simp

theorem unescapeFrom_isSome {fuel : ℕ} {s : Text} (enough : s.length ≤ fuel) :
    (unescapeFrom names fuel s).isSome ↔ Decodes names s := by
  induction fuel generalizing s with
  | zero =>
    obtain rfl := List.length_eq_zero_iff.mp (Nat.le_zero.mp enough)
    exact iff_of_true rfl .nil
  | succ fuel ih =>
    match s with
    | [] => exact iff_of_true rfl .nil
    | c :: s =>
      rw [unescapeFrom]
      cases read : readPiece names (c :: s) with
      | none =>
        simp only [Option.bind_eq_bind, Option.bind_none, Option.isSome_none, Bool.false_eq_true,
          false_iff]
        rintro (_ | ⟨read', _⟩)
        cases read.symm.trans read'
      | some piece =>
        obtain ⟨value, rest⟩ := piece
        have shorter := readPiece_shorter read
        have later : (unescapeFrom names fuel rest).isSome ↔ Decodes names rest :=
          ih (by omega)
        have both : (do
            let more ← unescapeFrom names fuel rest
            return value ++ more).isSome = (unescapeFrom names fuel rest).isSome := by
          cases unescapeFrom names fuel rest <;> rfl
        simp only [Option.bind_eq_bind, Option.bind_some] at both ⊢
        rw [both, later]
        constructor
        · exact .piece read
        · rintro (_ | ⟨read', decodes⟩)
          cases read.symm.trans read'
          exact decodes

theorem unescape_isSome (s : Text) : (unescape names s).isSome ↔ Decodes names s :=
  unescapeFrom_isSome le_rfl

theorem decodes_iff {s value rest : Text} (read : readPiece names s = some (value, rest)) :
    Decodes names s ↔ Decodes names rest := by
  constructor
  · rintro (_ | ⟨read', decodes⟩)
    · cases read
    · cases read.symm.trans read'
      exact decodes
  · exact .piece read

theorem decodes_plain {s : Text} (plain : backslash ∉ s) (t : Text) :
    Decodes names (s ++ t) ↔ Decodes names t := by
  induction s with
  | nil => rfl
  | cons c s ih =>
    rw [List.mem_cons, not_or] at plain
    have read : readPiece names (c :: (s ++ t)) = some ([c], s ++ t) := by
      rw [readPiece, if_neg (Ne.symm plain.1)]
    rw [List.cons_append, decodes_iff read, ih plain.2]

/-- What is read from a text and a line end ends in the text, or nothing is read, whatever
    follows without a brace. -/
def EndsWithin {α : Type} (read : Text → Option (α × Text)) (s : Text) : Prop :=
  (∀ t, ofChar '\x7d' ∉ t → read (s ++ ofChar '\n' :: t) = none) ∨
    ∃ a s', s' <:+ s ∧
      ∀ t, ofChar '\x7d' ∉ t → read (s ++ ofChar '\n' :: t) = some (a, s' ++ ofChar '\n' :: t)

theorem hexNumber_within (width n : ℕ) (s : Text) : EndsWithin (hexNumber width n) s := by
  induction width generalizing n s with
  | zero => exact .inr ⟨n, s, List.suffix_rfl, fun t _ => rfl⟩
  | succ width ih =>
    match s with
    | [] => exact .inl fun t _ => rfl
    | c :: s =>
      cases digit : hexValue c with
      | none =>
        refine .inl fun t _ => ?_
        rw [List.cons_append, hexNumber, digit]
      | some d =>
        have step : ∀ t, hexNumber (width + 1) n (c :: s ++ t) =
            hexNumber width (n * 16 + d) (s ++ t) := by
          intro t
          rw [List.cons_append, hexNumber, digit]
        rcases ih (n * 16 + d) s with fails | ⟨m, s', suffix, reads⟩
        · exact .inl fun t brace => (step _).trans (fails t brace)
        · exact .inr ⟨m, s', suffix.trans (List.suffix_cons c s),
            fun t brace => (step _).trans (reads t brace)⟩

theorem takeWhile_line {p : CodePoint → Bool} (line : p (ofChar '\n') = false) (s t : Text) :
    (s ++ ofChar '\n' :: t).takeWhile p = s.takeWhile p := by
  rw [List.takeWhile_append, List.takeWhile_cons_of_neg (by simp [line])]
  split
  · rename_i all
    rw [List.append_nil, (List.takeWhile_sublist p).eq_of_length all]
  · rfl

theorem readEscape_octal {e : CodePoint} (line : e ≠ ofChar '\n') (octal : isOctal e = true)
    (s : Text) : EndsWithin (readEscape names) (e :: s) := by
  have digits : ∀ t, ((e :: (s ++ ofChar '\n' :: t)).takeWhile isOctal).take 3 =
      ((e :: s).takeWhile isOctal).take 3 := by
    intro t
    rw [← List.cons_append, takeWhile_line (by decide)]
  have short : (((e :: s).takeWhile isOctal).take 3).length ≤ (e :: s).length :=
    ((List.take_sublist _ _).trans (List.takeWhile_sublist _)).length_le
  have behind : ∀ t, (e :: (s ++ ofChar '\n' :: t)).drop (((e :: s).takeWhile isOctal).take 3).length =
      (e :: s).drop (((e :: s).takeWhile isOctal).take 3).length ++ ofChar '\n' :: t := fun t =>
    List.drop_append_of_le_length short
  cases value : codePoint ((((e :: s).takeWhile isOctal).take 3).foldl
      (fun n d => n * 8 + (d.val - 0x30)) 0) with
  | none =>
    refine .inl fun t _ => ?_
    simp only [List.cons_append, readEscape, line, octal, if_true, if_false, digits, value,
      Option.map_none]
  | some c =>
    refine .inr ⟨c, (e :: s).drop (((e :: s).takeWhile isOctal).take 3).length,
      List.drop_suffix _ _, fun t _ => ?_⟩
    simp only [List.cons_append, readEscape, line, octal, if_true, if_false, digits, value,
      Option.map_some, behind]

theorem readEscape_brace (s : Text) : readEscape names (ofChar 'N' :: ofChar '\x7b' :: s) =
    (s.dropWhile (· ≠ ofChar '\x7d')).tail?.bind fun after =>
      (names (s.takeWhile (· ≠ ofChar '\x7d'))).map fun c => ([c], after) := by
  have plain : ofChar 'N' ≠ ofChar '\n' ∧ isOctal (ofChar 'N') = false := by decide
  simp only [readEscape, plain, Bool.false_eq_true, if_false, if_true]
  cases s.dropWhile _ <;> rfl

theorem dropWhile_line {s t : Text} {brace : CodePoint} (line : brace ≠ ofChar '\n')
    (open_ : brace ∉ s) (noBrace : brace ∉ t) :
    (s ++ ofChar '\n' :: t).dropWhile (· ≠ brace) = [] := by
  rw [List.dropWhile_eq_nil_iff]
  rintro c mem
  refine decide_eq_true fun same => ?_
  subst same
  rcases List.mem_append.mp mem with name | later
  · exact open_ name
  · rcases List.mem_cons.mp later with isLine | rest
    · exact line isLine
    · exact noBrace rest

/- The name of a character ends at its brace. -/
theorem readEscape_named (s : Text) : EndsWithin (readEscape names) (ofChar 'N' :: s) := by
  have plain : ofChar 'N' ≠ ofChar '\n' ∧ isOctal (ofChar 'N') = false := by decide
  match s with
  | [] => exact .inl fun t _ => rfl
  | brace :: s =>
    by_cases opened : brace = ofChar '\x7b'
    · subst opened
      by_cases closed : ofChar '\x7d' ∈ s
      · obtain ⟨name, after, rfl, inside⟩ := List.eq_append_cons_of_mem closed
        have before : ∀ c ∈ name, decide (c ≠ ofChar '\x7d') = true := by
          rintro c mem
          exact decide_eq_true fun same => inside (same ▸ mem)
        have read : ∀ t, readEscape names
            (ofChar 'N' :: ofChar '\x7b' :: (name ++ ofChar '\x7d' :: after) ++ t) =
              (names name).map fun c => ([c], after ++ t) := by
          intro t
          have shape : ofChar 'N' :: ofChar '\x7b' :: (name ++ ofChar '\x7d' :: after) ++ t =
              ofChar 'N' :: ofChar '\x7b' :: (name ++ ofChar '\x7d' :: (after ++ t)) := by simp
          rw [shape, readEscape_brace, List.dropWhile_append_of_pos before,
            List.takeWhile_append_of_pos before]
          simp
        have suffix : after <:+ ofChar 'N' :: ofChar '\x7b' :: (name ++ ofChar '\x7d' :: after) :=
          ⟨ofChar 'N' :: ofChar '\x7b' :: (name ++ [ofChar '\x7d']), by simp⟩
        cases known : names name with
        | none => exact .inl fun t _ => by rw [read, known, Option.map_none]
        | some c => exact .inr ⟨[c], after, suffix, fun t _ => by rw [read, known, Option.map_some]⟩
      · refine .inl fun t noBrace => ?_
        have shape : ofChar 'N' :: ofChar '\x7b' :: s ++ ofChar '\n' :: t =
            ofChar 'N' :: ofChar '\x7b' :: (s ++ ofChar '\n' :: t) := rfl
        rw [shape, readEscape_brace, dropWhile_line (by decide) closed noBrace, List.tail?_nil,
          Option.bind_none]
    · refine .inl fun t _ => ?_
      simp [readEscape, plain, opened]

theorem readEscape_within (e : CodePoint) (s : Text) : EndsWithin (readEscape names) (e :: s) := by
  by_cases line : e = ofChar '\n'
  · refine .inr ⟨[], s, List.suffix_cons e s, fun t _ => ?_⟩
    simp [readEscape, line]
  by_cases octal : isOctal e = true
  · exact readEscape_octal line octal s
  by_cases named : e = ofChar 'N'
  · subst named
    exact readEscape_named s
  cases hex : hexWidth e with
  | some width =>
    have step : ∀ t, readEscape names (e :: s ++ t) = (hexNumber width 0 (s ++ t)).bind fun read =>
        (codePoint read.1).bind fun c => some (c, read.2) := by
      intro t
      simp only [List.cons_append, readEscape, line, octal, named, hex, if_false]
      rfl
    rcases hexNumber_within width 0 s with fails | ⟨n, s', suffix, reads⟩
    · refine .inl fun t brace => ?_
      rw [step, fails t brace, Option.bind_none]
    · cases value : codePoint n with
      | none =>
        refine .inl fun t brace => ?_
        rw [step, reads t brace, Option.bind_some, value, Option.bind_none]
      | some c =>
        refine .inr ⟨c, s', suffix.trans (List.suffix_cons e s), fun t brace => ?_⟩
        rw [step, reads t brace, Option.bind_some, value, Option.bind_some]
  | none =>
    cases letter : letterEscapes.find? fun pair => ofChar pair.1 == e with
    | some pair =>
      refine .inr ⟨[ofChar pair.2], s, List.suffix_cons e s, fun t _ => ?_⟩
      simp [readEscape, line, octal, named, hex, letter]
    | none =>
      refine .inr ⟨[backslash, e], s, List.suffix_cons e s, fun t _ => ?_⟩
      simp [readEscape, line, octal, named, hex, letter]

/-- A line end keeps the escapes in front of it apart from what follows. -/
theorem decodes_line {s t : Text} (noBrace : ofChar '\x7d' ∉ t) :
    Decodes names (s ++ ofChar '\n' :: t) ↔
      Decodes names (s ++ [ofChar '\n']) ∧ Decodes names t := by
  induction size : s.length using Nat.strong_induction_on generalizing s with
  | _ n ih =>
    subst size
    have line : ∀ t, readPiece names (ofChar '\n' :: t) = some ([ofChar '\n'], t) := fun t => rfl
    match s with
    | [] =>
      rw [List.nil_append, List.nil_append, decodes_iff (line t), decodes_iff (line [])]
      simp [Decodes.nil]
    | c :: s =>
      by_cases escape : c = backslash
      · subst escape
        match s with
        | [] =>
          have continued : ∀ t, readPiece names (backslash :: ofChar '\n' :: t) = some ([], t) :=
            fun t => rfl
          simp only [List.cons_append, List.nil_append]
          rw [decodes_iff (continued t), decodes_iff (continued [])]
          simp [Decodes.nil]
        | e :: s =>
          have piece : ∀ t, readPiece names (backslash :: t) = readEscape names t := fun t => rfl
          have shape : ∀ t, backslash :: e :: s ++ t = backslash :: (e :: s ++ t) := fun t => rfl
          rw [shape, shape]
          rcases readEscape_within e s with fails | ⟨value, s', suffix, reads⟩
          · have malformed : ∀ t, ofChar '\x7d' ∉ t →
                ¬ Decodes names (backslash :: (e :: s ++ ofChar '\n' :: t)) := by
              rintro t brace (_ | ⟨read, _⟩)
              cases ((piece _).trans (fails t brace)).symm.trans read
            simp only [malformed t noBrace, malformed [] (by simp), false_and]
          · have shorter := suffix.length_le
            rw [decodes_iff ((piece _).trans (reads t noBrace)),
              decodes_iff ((piece _).trans (reads [] (by simp)))]
            exact ih s'.length (by simp at shorter ⊢; omega) rfl
      · have plain : backslash ∉ [c] := by simpa using Ne.symm escape
        have first : ∀ t, Decodes names (c :: t) ↔ Decodes names t := decodes_plain plain
        rw [List.cons_append, List.cons_append, first, first]
        exact ih s.length (by simp) rfl

end Decoding
end PythonSource
