import AgentEcosystem.Text.UnicodeText

/-!
A command line as a shell reads it: blanks end words, and quotes keep what is between
them. A text is read only if nothing else in it means something to the shell, so a
command that is read has no effect but to call its program with these words.
-/
namespace ShellWords
open UnicodeText

inductive Quoting where
  | unquoted | single | double
  deriving DecidableEq, Repr

def singleQuote : CodePoint := ofChar '\''

def doubleQuote : CodePoint := ofChar '"'

def isShellBlank (c : CodePoint) : Bool := c ∈ text " \t"

/-- Operators, expansions, patterns, comments and escapes. -/
def isActive (c : CodePoint) : Bool := c ∈ text "\n|&;<>()$\x60\\*?[#~!\x7b\x7d^"

def isActiveQuoted (c : CodePoint) : Bool := c ∈ text "$\x60\\"

/-- The words of the rest of a line; `word` is what was read of the present one, if one
    was begun. -/
def wordsFrom : Quoting → Option Text → Text → Option (List Text)
  | .unquoted, word, [] => some word.toList
  | _, _, [] => none
  | .single, word, c :: rest =>
    if c = singleQuote then wordsFrom .unquoted word rest
    else wordsFrom .single (some (word.getD [] ++ [c])) rest
  | .double, word, c :: rest =>
    if c = doubleQuote then wordsFrom .unquoted word rest
    else if isActiveQuoted c then none
    else wordsFrom .double (some (word.getD [] ++ [c])) rest
  | .unquoted, word, c :: rest =>
    if isShellBlank c then (wordsFrom .unquoted none rest).map (word.toList ++ ·)
    else if c = singleQuote then wordsFrom .single (some (word.getD [])) rest
    else if c = doubleQuote then wordsFrom .double (some (word.getD [])) rest
    else if isActive c then none
    else wordsFrom .unquoted (some (word.getD [] ++ [c])) rest

/-- The program and its arguments. What has an `=` in place of the program's name
    would be an assignment. -/
def simpleCommand (line : Text) : Option (List Text) :=
  match wordsFrom .unquoted none line with
  | some (program :: args) => if ofChar '=' ∈ program then none else some (program :: args)
  | _ => none

/-- What `shlex.quote` leaves unquoted. -/
def isSafe (c : CodePoint) : Bool :=
  isAsciiDigit c || (0x41 ≤ c.val && c.val ≤ 0x5A) || (0x61 ≤ c.val && c.val ≤ 0x7A) ||
    c ∈ text "_@%+=:,./-"

/-- `s.replace("'", "'\"'\"'")` -/
def escaped (s : Text) : Text :=
  s.flatMap fun c => if c = singleQuote then text "'\"'\"'" else [c]

/-- `shlex.quote(s)` -/
def quote (s : Text) : Text :=
  if s = [] then text "''"
  else if s.all isSafe then s
  else singleQuote :: (escaped s ++ [singleQuote])

/-- `" ".join(shlex.quote(a) for a in args)` -/
def quotedLine (args : List Text) : Text := (text " ").intercalate (args.map quote)

example : simpleCommand (text "tar -xf 'it'\"'\"'s here.tar' ''") =
    some [text "tar", text "-xf", text "it's here.tar", []] := by decide

example : simpleCommand (text "tar -xf a.tar; rm b") = none := by decide

theorem safe_plain {c : CodePoint} (safe : isSafe c = true) : isShellBlank c = false ∧
    c ≠ singleQuote ∧ c ≠ doubleQuote ∧ isActive c = false := by
  have differs : ∀ d, isSafe d = false → c ≠ d := by
    rintro d other rfl
    exact absurd (other.symm.trans safe) (by decide)
  have outside : ∀ s : String, ((text s).all fun d => !isSafe d) = true → c ∉ text s := by
    intro s others mem
    have other := List.all_eq_true.mp others c mem
    rw [safe] at other
    cases other
  refine ⟨?_, differs _ (by decide), differs _ (by decide), ?_⟩
  · exact decide_eq_false (outside " \t" (by decide))
  · exact decide_eq_false (outside _ (by decide))

theorem wordsFrom_safe {s : Text} (safe : ∀ c ∈ s, isSafe c = true) (before rest : Text) :
    wordsFrom .unquoted (some before) (s ++ rest) =
      wordsFrom .unquoted (some (before ++ s)) rest := by
  induction s generalizing before with
  | nil => rw [List.nil_append, List.append_nil]
  | cons c s ih =>
    obtain ⟨blank, single, double, active⟩ := safe_plain (safe c (by simp))
    rw [List.cons_append, wordsFrom]
    simp only [blank, active, if_neg single, if_neg double, Bool.false_eq_true, if_false]
    rw [Option.getD_some, ih (fun d mem => safe d (List.mem_cons_of_mem c mem)), List.append_assoc]
    rfl

/- Up to the closing quote, and behind it the word goes on. A quote in the word is
   closed, put between the other quotes, and opened again. -/
theorem wordsFrom_escaped (s before rest : Text) :
    wordsFrom .single (some before) (escaped s ++ singleQuote :: rest) =
      wordsFrom .unquoted (some (before ++ s)) rest := by
  induction s generalizing before with
  | nil =>
    rw [escaped, List.flatMap_nil, List.nil_append, List.append_nil, wordsFrom, if_pos rfl]
  | cons c s ih =>
    have cons : escaped (c :: s) = (if c = singleQuote then text "'\"'\"'" else [c]) ++ escaped s :=
      List.flatMap_cons
    rw [cons, List.append_assoc]
    by_cases quoted : c = singleQuote
    · subst quoted
      have reopened : ∀ t, wordsFrom .single (some before) (text "'\"'\"'" ++ t) =
          wordsFrom .single (some (before ++ [singleQuote])) t := fun _ => rfl
      rw [if_pos rfl, reopened, ih, List.append_assoc]
      rfl
    · rw [if_neg quoted, List.singleton_append, wordsFrom, if_neg quoted, Option.getD_some, ih,
        List.append_assoc]
      rfl

theorem wordsFrom_quote (s rest : Text) :
    wordsFrom .unquoted none (quote s ++ rest) = wordsFrom .unquoted (some s) rest := by
  unfold quote
  split
  · next empty =>
    rw [empty]
    rfl
  · split
    · next some_char safe =>
      have each := List.all_eq_true.mp safe
      obtain ⟨c, s, rfl⟩ := List.exists_cons_of_ne_nil some_char
      -- the first character begins the word
      have begins : wordsFrom .unquoted none (c :: s ++ rest) =
          wordsFrom .unquoted (some []) (c :: s ++ rest) := by
        obtain ⟨blank, single, double, active⟩ := safe_plain (each c (by simp))
        simp [wordsFrom, blank, single, double, active]
      rw [begins, wordsFrom_safe each, List.nil_append]
    · rw [List.cons_append, List.append_assoc, List.singleton_append]
      exact wordsFrom_escaped s [] rest

theorem wordsFrom_quotedLine (args : List Text) :
    wordsFrom .unquoted none (quotedLine args) = some args := by
  induction args with
  | nil => rfl
  | cons a args ih =>
    cases args with
    | nil =>
      have alone : quotedLine [a] = quote a ++ [] := by simp [quotedLine, List.intercalate]
      rw [alone, wordsFrom_quote]
      rfl
    | cons b args =>
      have cons : quotedLine (a :: b :: args) = quote a ++ (ofChar ' ' :: quotedLine (b :: args)) := by
        simp [quotedLine, List.intercalate, text]
      rw [cons, wordsFrom_quote, wordsFrom, if_pos (by decide), ih]
      rfl

/-- A quoted command is read back word by word, whatever its arguments are. -/
theorem simpleCommand_quotedLine {program : Text} (named : ofChar '=' ∉ program)
    (args : List Text) :
    simpleCommand (quotedLine (program :: args)) = some (program :: args) := by
  rw [simpleCommand, wordsFrom_quotedLine]
  exact if_neg named

end ShellWords
