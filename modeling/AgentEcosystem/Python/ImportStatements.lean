import AgentEcosystem.Python.StringLiterals

/-!
The import statements of a source text. Comments, literals and blanks are read past,
and so is a line end that does not end a statement. The expressions inside of an f-string
are source text too, with literals and comments of their own, as from Python 3.12 on.
-/
namespace PythonSource
open UnicodeText

inductive Token where
  | word (name : Text)
  | literal
  | mark (c : CodePoint)
  | lineEnd
  deriving DecidableEq, Repr

/-- A token, and the source from it on. -/
structure Lexeme where
  token : Token
  onward : Text

def isNameChar (c : CodePoint) : Bool :=
  isAsciiDigit c || (0x41 ≤ c.val && c.val ≤ 0x5A) || c.val == 0x5F ||
    (0x61 ≤ c.val && c.val ≤ 0x7A) || 0x80 ≤ c.val

def isBlank (c : CodePoint) : Bool := c ∈ text " \t\x0c"

def depthBehind (depth : ℕ) (c : CodePoint) : ℕ :=
  if c ∈ text "([\x7b" then depth + 1
  else if c ∈ text ")]\x7d" then depth - 1
  else depth

/-- The quote of an f-string, whether it stands three times, and whether a backslash is one. -/
structure Quoting where
  quote : CodePoint
  long : Bool
  raw : Bool

def Quoting.closing (f : Quoting) : Text :=
  if f.long then [f.quote, f.quote, f.quote] else [f.quote]

def formatPrefixes : List String := ["f", "F", "fr", "fR", "Fr", "FR", "rf", "rF", "Rf", "RF"]

/-- A word and a quote behind it that open an f-string, and the text inside of it. -/
def opensFormat (word : Text) : Text → Option (Quoting × Text)
  | [] => none
  | q :: rest =>
    if q ∈ text "\"'" ∧ word ∈ formatPrefixes.map text then
      if rest.take 2 = [q, q] then some (⟨q, true, word.length == 2⟩, rest.drop 2)
      else some (⟨q, false, word.length == 2⟩, rest)
    else none

/-- The text behind a backslash that is still to be read. The name of a character is read past,
    and a brace keeps its meaning. -/
def afterBackslash (raw : Bool) : Text → Text
  | [] => []
  | e :: rest =>
    if e ∈ text "\x7b\x7d" then e :: rest
    else if raw = false ∧ e = ofChar 'N' ∧ rest.head? = some (ofChar '\x7b') then
      (rest.dropWhile (· ≠ ofChar '\x7d')).tail
    else rest

mutual
/-- From inside of an f-string to behind its quotes, or from inside of the format specification
    of a field to behind that field. -/
def afterFormat : ℕ → Quoting → Bool → Text → Option Text
  | 0, _, _, _ => none
  | _ + 1, _, _, [] => none
  | fuel + 1, f, specification, c :: rest =>
    if f.closing.isPrefixOf (c :: rest) then
      if specification then none else some ((c :: rest).drop f.closing.length)
    else if c = ofChar '\n' ∧ f.long = false then
      if specification then afterField fuel f 0 rest else none
    else if c = ofChar '\x7b' then
      if specification = false ∧ rest.head? = some (ofChar '\x7b') then
        afterFormat fuel f specification rest.tail
      else (afterField fuel f 0 rest).bind fun after => afterFormat fuel f specification after
    else if c = ofChar '\x7d' ∧ specification = true then some rest
    else if c = backslash then afterFormat fuel f specification (afterBackslash f.raw rest)
    else afterFormat fuel f specification rest

/-- From inside of a field of an f-string to behind it. -/
def afterField : ℕ → Quoting → ℕ → Text → Option Text
  | 0, _, _, _ => none
  | _ + 1, _, _, [] => none
  | fuel + 1, f, depth, c :: rest =>
    if c = ofChar '#' then afterField fuel f depth (rest.dropWhile (· ≠ ofChar '\n'))
    else if c ∈ text "\"'" then
      (literal (c :: rest)).bind fun read => afterField fuel f depth read.2
    else if isNameChar c then
      match opensFormat (c :: rest.takeWhile isNameChar) (rest.dropWhile isNameChar) with
      | some (inner, body) =>
        (afterFormat fuel inner false body).bind fun after => afterField fuel f depth after
      | none => afterField fuel f depth (rest.dropWhile isNameChar)
    else if depth = 0 ∧ c = ofChar '\x7d' then some rest
    else if depth = 0 ∧ c = ofChar ':' then afterFormat fuel f true rest
    else afterField fuel f (depthBehind depth c) rest
end

/-- The tokens up to the end or to a literal that is not closed. -/
def lexemesFrom : ℕ → ℕ → Text → List Lexeme
  | 0, _, _ => []
  | _ + 1, _, [] => []
  | fuel + 1, depth, c :: rest =>
    if isBlank c then lexemesFrom fuel depth rest
    else if c = ofChar '#' then lexemesFrom fuel depth (rest.dropWhile (· ≠ ofChar '\n'))
    else if c = backslash ∧ rest.head? = some (ofChar '\n') then lexemesFrom fuel depth rest.tail
    else if c = ofChar '\n' then
      (if depth = 0 then [⟨.lineEnd, c :: rest⟩] else []) ++ lexemesFrom fuel depth rest
    else if c ∈ text "\"'" then
      match literal (c :: rest) with
      | some (_, after) => ⟨.literal, c :: rest⟩ :: lexemesFrom fuel depth after
      | none => []
    else if isNameChar c then
      match opensFormat (c :: rest.takeWhile isNameChar) (rest.dropWhile isNameChar) with
      | some (f, body) =>
        match afterFormat fuel f false body with
        | some after => ⟨.literal, c :: rest⟩ :: lexemesFrom fuel depth after
        | none => []
      | none => ⟨.word (c :: rest.takeWhile isNameChar), c :: rest⟩ ::
          lexemesFrom fuel depth (rest.dropWhile isNameChar)
    else ⟨.mark c, c :: rest⟩ :: lexemesFrom fuel (depthBehind depth c) rest

def lexemes (source : Text) : List Lexeme := lexemesFrom (source.length + 1) 0 source

/-- Between statements, or between the header of a block and a statement behind it. -/
def isSeparator (t : Token) : Bool :=
  t = .lineEnd || t = .mark (ofChar ';') || t = .mark (ofChar ':')

def statementsOf (source : Text) : List (List Lexeme) :=
  (lexemes source).splitOnP fun l => isSeparator l.token

def firstWord : List Token → Option Text
  | .word name :: _ => some name
  | _ => none

/-- The modules an import statement names, without their submodules. A relative import names
    none, and what is no import statement does not either. -/
def importedModules : List Token → List Text
  | .word keyword :: rest =>
    if keyword = text "import" then
      (rest.splitOnP (· = .mark (ofChar ','))).filterMap firstWord
    else if keyword = text "from" then (firstWord rest).toList
    else []
  | _ => []

def namesModule (normalized : Text → Text) (m : Text) (statement : List Lexeme) : Bool :=
  (importedModules (statement.map Lexeme.token)).any fun name => normalized name == m

example : (statementsOf (text
      "x = '''import a'''  # import b\nif x: import\tc.d as e, \\\n f; from  g import(\n h)\n")).flatMap
    (fun statement => importedModules (statement.map Lexeme.token)) =
      [text "c", text "f", text "g"] := by decide

example : (statementsOf (text
      "x = f\"\x7b\"#\"\x7d\"; import  a\ny = F'''\x7bz:\x7bw\x7d\x7d import b '''\nimport c\n")).flatMap
    (fun statement => importedModules (statement.map Lexeme.token)) =
      [text "a", text "c"] := by decide

theorem opensFormat_suffix {word s body : Text} {f : Quoting}
    (opened : opensFormat word s = some (f, body)) : body <:+ s := by
  match s with
  | [] => cases opened
  | q :: rest =>
    rw [opensFormat] at opened
    split at opened
    · split at opened
      · cases opened
        exact (List.drop_suffix 2 rest).trans (List.suffix_cons q rest)
      · cases opened
        exact List.suffix_cons q body
    · cases opened

theorem afterBackslash_suffix (raw : Bool) (s : Text) : afterBackslash raw s <:+ s := by
  match s with
  | [] => exact List.suffix_rfl
  | e :: rest =>
    rw [afterBackslash]
    split
    · exact List.suffix_rfl
    · split
      · exact ((List.tail_suffix _).trans (List.dropWhile_suffix _)).trans (List.suffix_cons e rest)
      · exact List.suffix_cons e rest

/-- With this fuel, what is left behind an f-string or one of its fields ends the text. -/
structure LeavesEnds (fuel : ℕ) : Prop where
  format {f : Quoting} {specification : Bool} {s after : Text} :
    afterFormat fuel f specification s = some after → after <:+ s
  field {f : Quoting} {depth : ℕ} {s after : Text} :
    afterField fuel f depth s = some after → after <:+ s

section LeavesEnds
variable {fuel : ℕ} {f : Quoting} {s after : Text}

theorem afterFormat_step (leaves : LeavesEnds fuel) {specification : Bool}
    (read : afterFormat (fuel + 1) f specification s = some after) : after <:+ s := by
  match s with
  | [] => cases read
  | c :: rest =>
    have next := List.suffix_cons c rest
    rw [afterFormat] at read
    split at read
    · split at read
      · cases read
      · cases read
        exact List.drop_suffix _ _
    · split at read
      · split at read
        · exact (leaves.field read).trans next
        · cases read
      · split at read
        · split at read
          · exact ((leaves.format read).trans (List.tail_suffix rest)).trans next
          · obtain ⟨behind, field, later⟩ := Option.bind_eq_some_iff.mp read
            exact ((leaves.format later).trans (leaves.field field)).trans next
        · split at read
          · cases read
            exact next
          · split at read
            · exact ((leaves.format read).trans (afterBackslash_suffix _ _)).trans next
            · exact (leaves.format read).trans next

theorem afterField_step (leaves : LeavesEnds fuel) {depth : ℕ}
    (read : afterField (fuel + 1) f depth s = some after) : after <:+ s := by
  match s with
  | [] => cases read
  | c :: rest =>
    have next := List.suffix_cons c rest
    have onward := (List.dropWhile_suffix (l := rest) isNameChar).trans next
    rw [afterField] at read
    split at read
    · exact ((leaves.field read).trans (List.dropWhile_suffix _)).trans next
    · split at read
      · obtain ⟨⟨body, behind⟩, literal, later⟩ := Option.bind_eq_some_iff.mp read
        exact (leaves.field later).trans (literal_suffix literal)
      · split at read
        · split at read
          · rename_i inner body opened
            obtain ⟨behind, format, later⟩ := Option.bind_eq_some_iff.mp read
            exact (((leaves.field later).trans (leaves.format format)).trans
              (opensFormat_suffix opened)).trans onward
          · exact (leaves.field read).trans onward
        · split at read
          · cases read
            exact next
          · split at read
            · exact (leaves.format read).trans next
            · exact (leaves.field read).trans next

end LeavesEnds

theorem leavesEnds (fuel : ℕ) : LeavesEnds fuel := by
  induction fuel with
  | zero => exact ⟨nofun, nofun⟩
  | succ fuel ih => exact ⟨afterFormat_step ih, afterField_step ih⟩

theorem lexemesFrom_onward (fuel : ℕ) {depth : ℕ} {source : Text} {l : Lexeme}
    (mem : l ∈ lexemesFrom fuel depth source) : l.onward <:+ source := by
  induction fuel generalizing depth source with
  | zero => cases mem
  | succ fuel ih =>
    match source with
    | [] => cases mem
    | c :: rest =>
      have next := List.suffix_cons c rest
      have onward := (List.dropWhile_suffix (l := rest) isNameChar).trans next
      rw [lexemesFrom] at mem
      split at mem
      · exact (ih mem).trans next
      · split at mem
        · exact ((ih mem).trans (List.dropWhile_suffix _)).trans next
        · split at mem
          · exact ((ih mem).trans (List.tail_suffix rest)).trans next
          · split at mem
            · rcases List.mem_append.mp mem with here | later
              · split at here
                · rw [List.mem_singleton.mp here]
                · cases here
              · exact (ih later).trans next
            · split at mem
              · split at mem
                · rename_i body after read
                  rcases List.mem_cons.mp mem with rfl | later
                  · exact List.suffix_rfl
                  · exact (ih later).trans (literal_suffix read)
                · cases mem
              · split at mem
                · split at mem
                  · rename_i f body opened
                    split at mem
                    · rename_i after read
                      rcases List.mem_cons.mp mem with rfl | later
                      · exact List.suffix_rfl
                      · exact (((ih later).trans ((leavesEnds fuel).format read)).trans
                          (opensFormat_suffix opened)).trans onward
                    · cases mem
                  · rcases List.mem_cons.mp mem with rfl | later
                    · exact List.suffix_rfl
                    · exact (ih later).trans onward
                · rcases List.mem_cons.mp mem with rfl | later
                  · exact List.suffix_rfl
                  · exact (ih later).trans next

theorem mem_of_mem_splitOnP {α : Type} {p : α → Bool} {xs part : List α}
    (listed : part ∈ xs.splitOnP p) {x : α} (mem : x ∈ part) : x ∈ xs := by
  induction xs generalizing part with
  | nil =>
    rw [List.splitOnP_nil, List.mem_singleton] at listed
    subst listed
    cases mem
  | cons y xs ih =>
    rw [List.splitOnP_cons_eq_if_modifyHead] at listed
    split at listed
    · rcases List.mem_cons.mp listed with rfl | later
      · cases mem
      · exact List.mem_cons_of_mem y (ih later mem)
    · cases parts : xs.splitOnP p with
      | nil => exact absurd parts (List.splitOnP_ne_nil p xs)
      | cons first more =>
        rw [parts, List.modifyHead_cons] at listed
        rcases List.mem_cons.mp listed with rfl | later
        · rcases List.mem_cons.mp mem with rfl | inside
          · exact List.mem_cons_self
          · exact List.mem_cons_of_mem y (ih (parts ▸ List.mem_cons_self) inside)
        · exact List.mem_cons_of_mem y (ih (parts ▸ List.mem_cons_of_mem first later) mem)

theorem statementsOf_onward {source : Text} {statement : List Lexeme}
    (listed : statement ∈ statementsOf source) {l : Lexeme} (mem : l ∈ statement) :
    l.onward <:+ source :=
  lexemesFrom_onward _ (mem_of_mem_splitOnP listed mem)

end PythonSource
