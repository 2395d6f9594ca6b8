import AgentEcosystem.Text.UnicodeText

/-!
Reading and writing JSON as a scripting language's standard library does. The
reader takes more than the standard allows (`NaN`, lone surrogates, repeated
keys, of which the last counts) and stops at a nesting depth of its own.
-/
namespace JsonText
open UnicodeText

/-- A number with a fraction or an exponent stays the text it was written as. -/
inductive Json where
  | null
  | bool (b : Bool)
  | int (n : ℤ)
  | float (literal : Text)
  | str (s : Text)
  | arr (elements : List Json)
  | obj (members : List (Text × Json))
  deriving Repr

inductive JsonError where
  /-- The text is not a JSON document. -/
  | decode
  /-- The document is nested more deeply than the reader can follow. -/
  | recursion
  /-- An integer has more digits than the conversion allows. -/
  | digits
  deriving DecidableEq, Repr

def isBlank (c : CodePoint) : Bool :=
  c == ofChar ' ' || c == ofChar '\t' || c == ofChar '\n' || c == ofChar '\r'

def skipBlanks (cs : Text) : Text := cs.dropWhile isBlank

def afterWord (word : String) (cs : Text) : Option Text :=
  if (text word).isPrefixOf cs then some (cs.drop word.length) else none

def hexValue (c : CodePoint) : Option ℕ :=
  if 0x30 ≤ c.val ∧ c.val ≤ 0x39 then some (c.val - 0x30)
  else if 0x41 ≤ c.val ∧ c.val ≤ 0x46 then some (c.val - 0x41 + 10)
  else if 0x61 ≤ c.val ∧ c.val ≤ 0x66 then some (c.val - 0x61 + 10)
  else none

def readHex : Text → Except JsonError (ℕ × Text)
  | a :: b :: c :: d :: rest =>
    match hexValue a, hexValue b, hexValue c, hexValue d with
    | some a, some b, some c, some d => .ok (((a * 16 + b) * 16 + c) * 16 + d, rest)
    | _, _, _, _ => .error .decode
  | _ => .error .decode

/-- What a `\u` escape stands for: a high surrogate takes a low one that follows. -/
def readUnicodeEscape (cs : Text) : Except JsonError (CodePoint × Text) := do
  let (high, rest) ← readHex cs
  if 0xD800 ≤ high ∧ high < 0xDC00 then
    match afterWord "\\u" rest with
    | some after =>
      let (low, rest') ← readHex after
      if 0xDC00 ≤ low ∧ low < 0xE000 then
        return (Fin.ofNat 0x110000 (0x10000 + (high - 0xD800) * 0x400 + (low - 0xDC00)), rest')
      else return (Fin.ofNat 0x110000 high, rest)
    | none => return (Fin.ofNat 0x110000 high, rest)
  else return (Fin.ofNat 0x110000 high, rest)

def shortEscapes : List (Char × Char) :=
  [('"', '"'), ('\\', '\\'), ('/', '/'), ('b', '\x08'), ('f', '\x0c'), ('n', '\n'), ('r', '\r'),
    ('t', '\t')]

def readUnit : Text → Except JsonError (Option CodePoint × Text)
  | [] => .error .decode
  | c :: rest =>
    if c = ofChar '"' then .ok (none, rest)
    else if c.val < 0x20 then .error .decode
    else if c = ofChar '\\' then
      match rest with
      | [] => .error .decode
      | e :: rest =>
        if e = ofChar 'u' then (readUnicodeEscape rest).map fun (u, rest) => (some u, rest)
        else
          match shortEscapes.find? fun pair => ofChar pair.1 == e with
          | some pair => .ok (some (ofChar pair.2), rest)
          | none => .error .decode
    else .ok (some c, rest)

def readString : ℕ → Text → Except JsonError (Text × Text)
  | 0, _ => .error .decode
  | fuel + 1, cs => do
    match ← readUnit cs with
    | (none, rest) => return ([], rest)
    | (some c, rest) =>
      let (s, rest) ← readString fuel rest
      return (c :: s, rest)

/-- Digits to whose number the conversion is limited. -/
def maxStrDigits : ℕ := 4300

def digitValue (c : CodePoint) : Fin 10 := Fin.ofNat 10 (c.val - 0x30)

def readFraction (cs : Text) : Text × Text :=
  match cs with
  | point :: rest =>
    let (digits, rest') := rest.span isAsciiDigit
    if point = ofChar '.' ∧ digits ≠ [] then (point :: digits, rest') else ([], cs)
  | [] => ([], [])

def readExponent (cs : Text) : Text × Text :=
  match cs with
  | e :: rest =>
    let (sign, rest) := rest.span fun c => c == ofChar '+' || c == ofChar '-'
    let (digits, rest') := rest.span isAsciiDigit
    if (e = ofChar 'e' ∨ e = ofChar 'E') ∧ sign.length ≤ 1 ∧ digits ≠ [] then
      (e :: (sign ++ digits), rest')
    else ([], cs)
  | [] => ([], [])

/-- A number; an integer is converted only up to a number of digits. -/
def readNumber (maxDigits : ℕ) (cs : Text) : Except JsonError (Json × Text) :=
  let negative := cs.head? == some (ofChar '-')
  let (run, rest) := (if negative then cs.tail else cs).span isAsciiDigit
  match run with
  | [] => .error .decode
  | first :: more =>
    -- a leading zero ends the number
    let (whole, rest) := if first = ofChar '0' then ([first], more ++ rest) else (run, rest)
    let (fraction, rest) := readFraction rest
    let (exponent, rest) := readExponent rest
    let sign := if negative then [ofChar '-'] else []
    if fraction = [] ∧ exponent = [] then
      if whole.length ≤ maxDigits then
        let n : ℤ := ofDigits (whole.map digitValue)
        .ok (.int (if negative then -n else n), rest)
      else .error .digits
    else .ok (.float (sign ++ whole ++ fraction ++ exponent), rest)

def wordValues : List (String × Json) :=
  [("null", .null), ("true", .bool true), ("false", .bool false), ("NaN", .float (text "NaN")),
    ("Infinity", .float (text "Infinity")), ("-Infinity", .float (text "-Infinity"))]

def readWord (cs : Text) : Option (Json × Text) :=
  wordValues.findSome? fun (word, v) => (afterWord word cs).map fun rest => (v, rest)

/-- A repeated key keeps its place and takes the new value. -/
def setMember (members : List (Text × Json)) (key : Text) (v : Json) : List (Text × Json) :=
  if members.any fun m => m.1 == key then
    members.map fun m => if m.1 == key then (key, v) else m
  else members ++ [(key, v)]

section Values
variable (maxDigits : ℕ)

mutual
def readValue : ℕ → ℕ → Text → Except JsonError (Json × Text)
  | 0, _, _ => .error .decode
  | _ + 1, _, [] => .error .decode
  | fuel + 1, depth, c :: rest =>
    if c = ofChar '"' then do
      let (s, rest) ← readString (fuel + 1) rest
      return (.str s, rest)
    else if c = ofChar '{' then
      match depth with
      | 0 => .error .recursion
      | depth + 1 =>
        match skipBlanks rest with
        | [] => .error .decode
        | c :: rest =>
          if c = ofChar '}' then .ok (.obj [], rest) else readMembers fuel depth [] (c :: rest)
    else if c = ofChar '[' then
      match depth with
      | 0 => .error .recursion
      | depth + 1 =>
        match skipBlanks rest with
        | [] => .error .decode
        | c :: rest =>
          if c = ofChar ']' then .ok (.arr [], rest) else readElements fuel depth [] (c :: rest)
    else
      match readWord (c :: rest) with
      | some found => .ok found
      | none => readNumber maxDigits (c :: rest)

def readMembers : ℕ → ℕ → List (Text × Json) → Text → Except JsonError (Json × Text)
  | 0, _, _, _ => .error .decode
  | fuel + 1, depth, members, cs =>
    match afterWord "\"" cs with
    | none => .error .decode
    | some rest => do
      let (key, rest) ← readString (fuel + 1) rest
      match afterWord ":" (skipBlanks rest) with
      | none => .error .decode
      | some rest =>
        let (v, rest) ← readValue fuel depth (skipBlanks rest)
        let members := setMember members key v
        match skipBlanks rest with
        | [] => .error .decode
        | c :: rest =>
          if c = ofChar '}' then return (.obj members, rest)
          else if c = ofChar ',' then readMembers fuel depth members (skipBlanks rest)
          else .error .decode

def readElements : ℕ → ℕ → List Json → Text → Except JsonError (Json × Text)
  | 0, _, _, _ => .error .decode
  | fuel + 1, depth, elements, cs => do
    let (v, rest) ← readValue fuel depth cs
    let elements := elements ++ [v]
    match skipBlanks rest with
    | [] => .error .decode
    | c :: rest =>
      if c = ofChar ']' then return (.arr elements, rest)
      else if c = ofChar ',' then readElements fuel depth elements (skipBlanks rest)
      else .error .decode
end

end Values

def loadsWithin (maxDigits maxDepth : ℕ) (cs : Text) : Except JsonError Json := do
  let (v, rest) ← readValue maxDigits (cs.length + 1) maxDepth (skipBlanks cs)
  if skipBlanks rest = [] then return v else throw .decode

/-- `json.loads`, with the limits of the interpreter it runs in. -/
def loads (maxDepth : ℕ) (cs : Text) : Except JsonError Json := loadsWithin maxStrDigits maxDepth cs

/-- The value of a document. No document has more digits or levels than characters. -/
def parse (cs : Text) : Except JsonError Json := loadsWithin cs.length cs.length cs

def joinComma : List Text → Text
  | [] => []
  | [t] => t
  | t :: rest => t ++ text "," ++ joinComma rest

def hexDigit (n : ℕ) : CodePoint := Fin.ofNat 0x110000 (if n < 10 then 0x30 + n else 0x57 + n)

def unicodeEscape (n : ℕ) : Text :=
  text "\\u" ++ [hexDigit (n / 4096 % 16), hexDigit (n / 256 % 16), hexDigit (n / 16 % 16),
    hexDigit (n % 16)]

/-- The short escape a writer uses. It never escapes the slash. -/
def shortEscape (c : CodePoint) : Option Text :=
  if c = ofChar '/' then none
  else (shortEscapes.find? fun pair => ofChar pair.2 == c).map fun pair =>
    [ofChar '\\', ofChar pair.1]

/-- One character of a string, with `ensure_ascii` or without. -/
def writeChar (ensureAscii : Bool) (c : CodePoint) : Text :=
  match shortEscape c with
  | some escaped => escaped
  | none =>
    if c.val < 0x20 then unicodeEscape c.val
    else if ensureAscii && 0x7F ≤ c.val then
      if c.val < 0x10000 then unicodeEscape c.val
      else unicodeEscape (0xD800 + (c.val - 0x10000) / 0x400) ++
        unicodeEscape (0xDC00 + (c.val - 0x10000) % 0x400)
    else [c]

def writeString (ensureAscii : Bool) (s : Text) : Text :=
  [ofChar '"'] ++ s.flatMap (writeChar ensureAscii) ++ [ofChar '"']

theorem hexDigit_val {n : ℕ} (h : n < 16) : (hexDigit n).val < 0x80 := by
  have same : (hexDigit n).val = (if n < 10 then 0x30 + n else 0x57 + n) % 0x110000 := rfl
  rw [same]
  split <;> omega

theorem unicodeEscape_ascii (n : ℕ) : ∀ c ∈ unicodeEscape n, c.val < 0x80 := by
  have marks : ∀ ch ∈ "\\u".toList, decide (ch.toNat < 0x80) = true :=
    List.all_eq_true.mp (by decide)
  intro c mem
  rcases List.mem_append.mp mem with slash | digit
  · obtain ⟨ch, member, rfl⟩ := List.mem_map.mp slash
    rw [ofChar_val]
    exact of_decide_eq_true (marks ch member)
  · simp only [List.mem_cons, List.not_mem_nil, or_false] at digit
    rcases digit with rfl | rfl | rfl | rfl <;> exact hexDigit_val (Nat.mod_lt _ (by decide))

theorem characters_of_ascii {t : Text} (h : ∀ c ∈ t, c.val < 0x80) : Characters t := by
  intro c mem surrogate
  have small := h c mem
  have large := surrogate.1
  omega

theorem shortEscape_characters {c : CodePoint} {escaped : Text} (h : shortEscape c = some escaped) :
    Characters escaped := by
  unfold shortEscape at h
  split at h
  · cases h
  · obtain ⟨pair, _, rfl⟩ := Option.map_eq_some_iff.mp h
    intro d mem
    simp only [List.mem_cons, List.not_mem_nil, or_false] at mem
    rcases mem with rfl | rfl <;> exact ofChar_character _

theorem writeChar_characters {ensureAscii : Bool} {c : CodePoint} (h : ¬ IsSurrogate c.val) :
    Characters (writeChar ensureAscii c) := by
  unfold writeChar
  split
  · rename_i escaped found
    exact shortEscape_characters found
  · split
    · exact characters_of_ascii (unicodeEscape_ascii _)
    · split
      · split
        · exact characters_of_ascii (unicodeEscape_ascii _)
        · exact characters_append (characters_of_ascii (unicodeEscape_ascii _))
            (characters_of_ascii (unicodeEscape_ascii _))
      · intro d mem
        rw [List.mem_singleton.mp mem]
        exact h

theorem writeString_characters {ensureAscii : Bool} {s : Text} (h : Characters s) :
    Characters (writeString ensureAscii s) := by
  have quote : Characters [ofChar '"'] := characters_text "\""
  apply characters_append _ quote
  apply characters_append quote
  apply characters_flatMap
  intro c mem
  exact writeChar_characters (h c mem)

example : writeString true (text "a\"é/") = text "\"a\\\"\\u00e9/\"" := by decide

end JsonText
