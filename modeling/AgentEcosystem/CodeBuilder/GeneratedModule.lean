import AgentEcosystem.CodeBuilder.Rendering
import AgentEcosystem.Python.EscapeDecoding
import AgentEcosystem.Text.Utf8RoundTrip

/-!
What an interpreter reads in a rendered `tool.py`: the docstring it begins with,
and the two literals the schemas are loaded from.
-/
namespace CodeBuilder
open JsonText PythonSource UnicodeText

def toolText (req : BuildRequest) : Option Text :=
  match render req with
  | .ok (toolPy, _) => decodeStrict toolPy
  | .error _ => none

def docstring (req : BuildRequest) : Text :=
  texts [req.toolName, " — generated by Code Builder\n\n",
    "Purpose: ", req.purpose, "\n",
    "Risk tier: ", req.riskTier.value, "\n",
    "Network required: ", pythonBool req.networkRequired, "\n"]

def inputLines : Text :=
  texts ["\n", "from __future__ import annotations\n\n",
    "import json\n",
    "from typing import Any\n\n\n",
    "INPUT_SCHEMA: dict = json.loads("]

def outputLine : Text := text ")\nOUTPUT_SCHEMA: dict = json.loads("

def entryPoint : Text :=
  texts [
    ")\n\n\n",
    "def run(payload: dict[str, Any]) -> dict[str, Any]:\n",
    "    \"\"\"Tool entry point. Replace with real logic.\"\"\"\n",
    "    # Placeholder: echo the validated payload keys.\n",
    "    return \x7b\"echoed_keys\": sorted(payload.keys())\x7d\n"]

def statements (req : BuildRequest) : Text :=
  inputLines ++ tojson req.inputSchemaJson ++ outputLine ++ tojson req.outputSchemaJson ++ entryPoint

theorem toolSkeleton_parts (req : BuildRequest) : toolSkeleton req =
    text "\"\"\"" ++ docstring req ++ text "\"\"\"" ++ statements req := by
  have quoted : text "\"\"\"\n" = text "\"\"\"" ++ text "\n" := rfl
  simp only [toolSkeleton, docstring, statements, inputLines, outputLine, entryPoint, texts,
    List.flatMap_cons, List.flatMap_nil, List.append_nil, List.append_assoc, quoted]

theorem toolText_eq (req : BuildRequest) : toolText req = some (toolSkeleton req) := by
  rw [toolText, render_ok]
  exact decodeStrict_encoded (toolSkeleton_characters req)

/-- The literal the module begins with is the template's docstring, all that follows it is the
    template's, and the interpreter reads both: no escape of the docstring is malformed, and
    there is no NUL. -/
structure DocstringKept (names : Text → Option CodePoint) (req : BuildRequest) : Prop where
  closed : (toolText req).bind literal = some (docstring req, statements req)
  decoded : (unescape names (docstring req)).isSome
  noNul : ∀ source ∈ toolText req, ofChar '\x00' ∉ source

def title (req : BuildRequest) : Text :=
  text req.toolName ++ text " — generated by Code Builder\n\nPurpose:"

def fields (req : BuildRequest) : Text :=
  text "Risk tier: " ++ text req.riskTier.value ++ text "\nNetwork required: " ++
    text (pythonBool req.networkRequired)

theorem docstring_parts (req : BuildRequest) : docstring req =
    title req ++ ofChar ' ' :: (text req.purpose ++ ofChar '\n' :: (fields req ++ [ofChar '\n'])) := by
  have blank : text "Purpose: " = text "Purpose:" ++ [ofChar ' '] := rfl
  have line : text "\n" = [ofChar '\n'] := rfl
  have header : text " — generated by Code Builder\n\nPurpose:" =
      text " — generated by Code Builder\n\n" ++ text "Purpose:" := rfl
  have network : text "\nNetwork required: " = ofChar '\n' :: text "Network required: " := rfl
  simp [docstring, title, fields, texts, blank, line, header, network]

theorem toolName_plain (req : BuildRequest) {d : Char} (special : d ∈ ['"', '\\', '\x00']) :
    ofChar d ∉ text req.toolName := by
  have outside : ∀ d ∈ ['"', '\\', '\x00'],
      isLower d = false ∧ (isLower d || d.isDigit || d == '_') = false := by
    simp only [List.mem_cons, List.not_mem_nil, or_false, forall_eq_or_imp, forall_eq]
    decide
  obtain ⟨noFirst, noLater⟩ := outside d special
  intro mem
  obtain ⟨c, inside, same⟩ := List.mem_map.mp mem
  obtain rfl := ofChar_injective same
  have fits := req.toolName_fits
  unfold isToolName at fits
  split at fits
  · cases fits
  · rename_i first rest shape
    rw [shape] at inside
    simp only [Bool.and_eq_true, List.all_eq_true] at fits
    rcases List.mem_cons.mp inside with rfl | later
    · exact absurd (noFirst.symm.trans fits.1.1) (by decide)
    · exact absurd (noLater.symm.trans (fits.2 _ later)) (by decide)

theorem title_plain (req : BuildRequest) {d : Char} (special : d ∈ ['"', '\\', '\x00']) :
    ofChar d ∉ title req := by
  have fixed : ∀ d ∈ ['"', '\\', '\x00'],
      ofChar d ∉ text " — generated by Code Builder\n\nPurpose:" := by
    simp only [List.mem_cons, List.not_mem_nil, or_false, forall_eq_or_imp, forall_eq]
    decide
  simp [title, toolName_plain req special, fixed d special]

theorem fields_plain (req : BuildRequest) {d : Char} (special : d ∈ ['"', '\\', '\x00', '\x7d']) :
    ofChar d ∉ fields req := by
  have tiers : ∀ tier : RiskTier, ∀ d ∈ ['"', '\\', '\x00', '\x7d'], ofChar d ∉ text tier.value := by
    simp only [List.mem_cons, List.not_mem_nil, or_false, forall_eq_or_imp, forall_eq]
    intro tier
    cases tier <;> decide
  have answers : ∀ b : Bool, ∀ d ∈ ['"', '\\', '\x00', '\x7d'], ofChar d ∉ text (pythonBool b) := by
    simp only [List.mem_cons, List.not_mem_nil, or_false, forall_eq_or_imp, forall_eq]
    decide
  have fixed : ∀ part ∈ ["Risk tier: ", "\nNetwork required: "],
      ∀ d ∈ ['"', '\\', '\x00', '\x7d'], ofChar d ∉ text part := by
    simp only [List.mem_cons, List.not_mem_nil, or_false, forall_eq_or_imp, forall_eq]
    decide
  simp [fields, tiers _ d special, answers _ d special, fixed _ _ d special]

/- A blank or a line end behind a part that closes nothing belongs to the docstring too. -/
theorem docstring_open {stop : CodePoint} (blank : stop = ofChar ' ' ∨ stop = ofChar '\n')
    {s : Text} (opened : ¬ Closes (ofChar '"') s) (t : Text) :
    longBody (ofChar '"') (s ++ stop :: t) =
      (longBody (ofChar '"') t).map (behind (s ++ [stop])) := by
  have plain : stop ≠ backslash ∧ stop ≠ ofChar '"' := by
    rcases blank with rfl | rfl <;> decide
  exact longBody_open (by decide) stop plain.1 plain.2 s t opened

theorem literal_toolSkeleton (req : BuildRequest) : (toolText req).bind literal =
    (longBody (ofChar '"') (text req.purpose ++ ofChar '\n' ::
      (fields req ++ ofChar '\n' :: (text "\"\"\"" ++ statements req)))).map
        (behind (title req ++ [ofChar ' '])) := by
  have opening : ∀ t, literal (text "\"\"\"" ++ t) = longBody (ofChar '"') t := fun t => rfl
  have titled := docstring_open (.inl rfl) (not_closes (title_plain req (by simp)))
    (text req.purpose ++ ofChar '\n' ::
      (fields req ++ ofChar '\n' :: (text "\"\"\"" ++ statements req)))
  rw [toolText_eq, Option.bind_some, toolSkeleton_parts, List.append_assoc, List.append_assoc,
    opening, ← titled, docstring_parts]
  simp

theorem docstring_closed {req : BuildRequest}
    (opened : ¬ Closes (ofChar '"') (text req.purpose)) :
    (toolText req).bind literal = some (docstring req, statements req) := by
  have purpose := docstring_open (.inr rfl) opened
    (fields req ++ ofChar '\n' :: (text "\"\"\"" ++ statements req))
  have lines := docstring_open (.inr rfl) (not_closes (fields_plain req (by simp)))
    (text "\"\"\"" ++ statements req)
  have closing : longBody (ofChar '"') (text "\"\"\"" ++ statements req) =
      some ([], statements req) := longBody_quotes (by decide) (statements req)
  rw [literal_toolSkeleton, purpose, lines, closing, docstring_parts]
  simp [behind]

theorem docstring_cut {req : BuildRequest} (closes : Closes (ofChar '"') (text req.purpose)) :
    ∃ body after, text req.purpose = body ++ text "\"\"\"" ++ after ∧
      (toolText req).bind literal = some (title req ++ ofChar ' ' :: body,
        after ++ ofChar '\n' :: (fields req ++ ofChar '\n' :: (text "\"\"\"" ++ statements req))) := by
  obtain ⟨body, after, split, read⟩ := longBody_closed (by decide) closes (ofChar '\n' ::
    (fields req ++ ofChar '\n' :: (text "\"\"\"" ++ statements req)))
  refine ⟨body, after, split, ?_⟩
  rw [literal_toolSkeleton, read]
  simp [behind]

/- Only the purpose has escapes, and none goes beyond its line. -/
theorem docstring_decoded (names : Text → Option CodePoint) (req : BuildRequest) :
    (unescape names (docstring req)).isSome ↔
      (unescape names (text req.purpose ++ [ofChar '\n'])).isSome := by
  have titled : backslash ∉ title req ++ [ofChar ' '] := by
    have blank : ofChar '\\' ≠ ofChar ' ' := by decide
    have absent : ofChar '\\' ∉ title req := title_plain req (by simp)
    simp [backslash, blank, absent]
  have ended : ∀ d ∈ ['\\', '\x7d'], ofChar d ∉ fields req ++ [ofChar '\n'] := by
    intro d special
    have line : ∀ d ∈ ['\\', '\x7d'], ofChar d ≠ ofChar '\n' := by
      simp only [List.mem_cons, List.not_mem_nil, or_false, forall_eq_or_imp, forall_eq]
      decide
    have escaping : ['\\', '\x7d'] ⊆ ['"', '\\', '\x00', '\x7d'] := by simp
    have absent : ofChar d ∉ fields req := fields_plain req (escaping special)
    simpa [line d special] using absent
  have plain : Decodes names (fields req ++ [ofChar '\n']) := by
    have whole : Decodes names (fields req ++ [ofChar '\n'] ++ []) ↔ Decodes names [] :=
      decodes_plain (ended '\\' (by simp)) []
    rw [List.append_nil] at whole
    exact whole.mpr .nil
  rw [unescape_isSome, unescape_isSome, docstring_parts, List.append_cons (title req),
    decodes_plain titled, decodes_line (ended '\x7d' (by simp))]
  simp [plain]

theorem unicodeEscape_noNul (n : ℕ) : ofChar '\x00' ∉ unicodeEscape n := by
  have digits : ∀ d : Fin 16, ofChar '\x00' ≠ hexDigit d := by decide
  have digit : ∀ k, ofChar '\x00' ≠ hexDigit (k % 16) := fun k =>
    digits ⟨k % 16, Nat.mod_lt k (by decide)⟩
  have mark : ofChar '\x00' ∉ text "\\u" := by decide
  simp [unicodeEscape, mark, digit]

theorem tojson_noNul (s : String) : ofChar '\x00' ∉ tojson s := by
  have written : ofChar '\x00' ∉ writeString true (text s) := by
    have quote : ofChar '\x00' ≠ ofChar '"' := by decide
    simp only [writeString, List.mem_append, List.mem_singleton, quote, false_or, or_false,
      List.mem_flatMap, not_exists, not_and]
    intro c _
    unfold writeChar
    split
    · rename_i escaped found
      obtain ⟨pair, listed, _, _, rfl⟩ := shortEscape_some found
      have letters : ∀ pair ∈ shortEscapes, ofChar '\x00' ∉ [ofChar '\\', ofChar pair.1] := by
        decide
      exact letters pair listed
    · split
      · exact unicodeEscape_noNul _
      · rename_i printed
        split
        · split
          · exact unicodeEscape_noNul _
          · simp [unicodeEscape_noNul]
        · intro same
          rw [← List.mem_singleton.mp same] at printed
          exact printed (by decide)
  rw [tojson, List.mem_flatMap]
  rintro ⟨c, mem, inside⟩
  unfold markupSafe at inside
  split at inside
  · exact unicodeEscape_noNul _ inside
  · rw [List.mem_singleton.mp inside] at written
    exact written mem

theorem toolSkeleton_noNul (req : BuildRequest) :
    ofChar '\x00' ∈ toolSkeleton req ↔ ofChar '\x00' ∈ text req.purpose := by
  have quotes : ofChar '\x00' ∉ text "\"\"\"" := by decide
  have fixed : ofChar '\x00' ∉ inputLines ∧ ofChar '\x00' ∉ outputLine ∧
      ofChar '\x00' ∉ entryPoint := by decide +kernel
  have blanks : ofChar '\x00' ≠ ofChar ' ' ∧ ofChar '\x00' ≠ ofChar '\n' := by decide
  have titled : ofChar '\x00' ∉ title req := title_plain req (by simp)
  have ended : ofChar '\x00' ∉ fields req := fields_plain req (by simp)
  simp [toolSkeleton_parts, docstring_parts, statements, quotes, fixed, blanks, titled, ended,
    tojson_noNul]

/-- The docstring ends where the template ends it, and the module is read, exactly if the purpose
    holds no three quotes behind an even number of backslashes, no malformed escape, not even
    one that the line end behind it cuts short, and no NUL. -/
theorem docstringKept_iff (names : Text → Option CodePoint) (req : BuildRequest) :
    DocstringKept names req ↔ ¬ Closes (ofChar '"') (text req.purpose) ∧
      (unescape names (text req.purpose ++ [ofChar '\n'])).isSome ∧
      ofChar '\x00' ∉ text req.purpose := by
  have noNul : (∀ source ∈ toolText req, ofChar '\x00' ∉ source) ↔
      ofChar '\x00' ∉ text req.purpose := by
    rw [toolText_eq]
    simp [toolSkeleton_noNul]
  rw [← docstring_decoded, ← noNul]
  constructor
  · rintro ⟨closed, decoded, noNul⟩
    refine ⟨fun closes => ?_, decoded, noNul⟩
    obtain ⟨body, after, split, read⟩ := docstring_cut closes
    have same := congrArg (fun r => r.1.length) (Option.some.inj (read.symm.trans closed))
    have purpose := congrArg List.length split
    simp [docstring_parts] at same purpose
    omega
  · rintro ⟨opened, decoded, noNul⟩
    exact ⟨docstring_closed opened, decoded, noNul⟩

def mailRequest : BuildRequest where
  id := ⟨0x1f⟩
  requestedBy := .mother
  purpose := "Summarise the mail of a working day in five lines."
  toolName := "mail_digest"
  inputSchemaJson := "\x7b\"type\": \"object\"\x7d"
  outputSchemaJson := "\x7b\"type\": \"object\"\x7d"
  networkRequired := false
  allowedDomains := ["api.vercel.com"]
  riskTier := .low
  maxWallSeconds := 120
  createdAt := ⟨"2026-04-18T00:00:00Z"⟩
  purpose_fits := by decide
  toolName_fits := by decide
  allowedDomains_fit := by decide
  maxWallSeconds_fits := by decide

def importingRequest : BuildRequest :=
  { mailRequest with
    purpose := "Summarise mail.\n\"\"\"\nimport os\nos.abort()\n\"\"\""
    purpose_fits := by decide }

/-- The docstring ends at the quotes of the purpose, whose other lines stand behind it in the
    place of statements. -/
theorem docstring_ends_early : (∀ names, ¬ DocstringKept names importingRequest) ∧
    ∃ body after, (toolText importingRequest).bind literal =
      some (body, text "\nimport os\nos.abort()\n" ++ after) := by
  have purpose : text importingRequest.purpose = text "Summarise mail.\n" ++ text "\"\"\"" ++
      text "\nimport os\nos.abort()\n\"\"\"" := by decide
  have read : ∃ body after, (toolText importingRequest).bind literal =
      some (body, text "\nimport os\nos.abort()\n" ++ after) := by
    rw [literal_toolSkeleton, purpose]
    exact ⟨_, _, rfl⟩
  refine ⟨?_, read⟩
  intro names kept
  obtain ⟨body, after, cut⟩ := read
  have same := congrArg (fun r => r.2.take 2) (Option.some.inj (cut.symm.trans kept.closed))
  have imported : (text "\nimport os\nos.abort()\n" ++ after).take 2 = text "\ni" := rfl
  have templated : (statements importingRequest).take 2 = text "\nf" := rfl
  exact absurd (imported.symm.trans (same.trans templated)) (by decide)

def untilInput (req : BuildRequest) : Text :=
  text "\"\"\"" ++ docstring req ++ text "\"\"\"" ++ inputLines

def untilOutput (req : BuildRequest) : Text :=
  untilInput req ++ tojson req.inputSchemaJson ++ outputLine

section Schemas
variable (names : Text → Option CodePoint)

def schemaRead (req : BuildRequest) (before : Text) : Option Text := do
  literalValue names ((← toolText req).drop before.length)

def SchemasReach (req : BuildRequest) : Prop :=
  schemaRead names req (untilInput req) = some (text req.inputSchemaJson) ∧
    schemaRead names req (untilOutput req) = some (text req.outputSchemaJson)

end Schemas

/-- The two code points a character outside the basic plane is escaped as. -/
def codeUnits (c : CodePoint) : Text :=
  if c.val < 0x10000 then [c]
  else [Fin.ofNat 0x110000 (0xD800 + (c.val - 0x10000) / 0x400),
    Fin.ofNat 0x110000 (0xDC00 + (c.val - 0x10000) % 0x400)]

def schemaChar (c : CodePoint) : Text := (writeChar true c).flatMap markupSafe

theorem tojson_chars (s : String) :
    tojson s = ofChar '"' :: (text s).flatMap schemaChar ++ [ofChar '"'] := by
  have quote : markupSafe (ofChar '"') = [ofChar '"'] := by decide
  simp only [tojson, writeString, List.flatMap_append, List.flatMap_cons, List.flatMap_nil, quote,
    List.append_nil, List.flatMap_assoc]
  rfl

theorem unicodeEscape_safe (n : ℕ) : (unicodeEscape n).flatMap markupSafe = unicodeEscape n := by
  have digits : ∀ d : Fin 16, markupSafe (hexDigit d) = [hexDigit d] := by decide
  have digit : ∀ k, markupSafe (hexDigit (k % 16)) = [hexDigit (k % 16)] := fun k =>
    digits ⟨k % 16, Nat.mod_lt k (by decide)⟩
  have mark : (text "\\u").flatMap markupSafe = text "\\u" := by decide
  simp only [unicodeEscape, List.flatMap_append, mark, List.flatMap_cons, List.flatMap_nil, digit,
    List.append_nil, List.singleton_append]

theorem codeUnits_basic {c : CodePoint} (basic : c.val < 0x10000) :
    codeUnits c = [Fin.ofNat 0x110000 c.val] := by
  have same : Fin.ofNat 0x110000 c.val = c := by
    apply Fin.ext
    exact Nat.mod_eq_of_lt c.isLt
  rw [codeUnits, if_pos basic, same]

section Reading
variable {names : Text → Option CodePoint}

theorem spells_unicode {n : ℕ} (small : n < 0x10000) :
    Spells names (ofChar '"') ((unicodeEscape n).flatMap markupSafe) [Fin.ofNat 0x110000 n] := by
  rw [unicodeEscape_safe]
  exact (piece_unicode small).spells

/- The letters the writer escapes with mean the same to the reader. -/
theorem spells_letter {pair : Char × Char} (written : pair ∈ shortEscapes)
    (notSlash : ofChar pair.2 ≠ ofChar '/') :
    Spells names (ofChar '"') ([ofChar '\\', ofChar pair.1].flatMap markupSafe)
      (codeUnits (ofChar pair.2)) := by
  have shared : ∀ pair ∈ shortEscapes, ofChar pair.2 ≠ ofChar '/' → pair ∈ letterEscapes ∧
      [ofChar '\\', ofChar pair.1].flatMap markupSafe = [backslash, ofChar pair.1] ∧
      codeUnits (ofChar pair.2) = [ofChar pair.2] := by decide
  obtain ⟨known, same, unit⟩ := shared pair written notSlash
  rw [same, unit]
  exact (piece_letter (by decide) known).spells

theorem spells_safe {c : CodePoint} (unquoted : c ≠ ofChar '"') (notSlash : c ≠ ofChar '\\')
    (printed : ¬ c.val < 0x20) (ascii : ¬ 0x7F ≤ c.val) :
    Spells names (ofChar '"') (markupSafe c) (codeUnits c) := by
  have basic : c.val < 0x10000 := by omega
  unfold markupSafe
  split
  · rw [codeUnits_basic basic, ← unicodeEscape_safe]
    exact spells_unicode basic
  · have line : c ≠ ofChar '\n' := by
      rintro rfl
      exact printed (by decide)
    rw [codeUnits, if_pos basic]
    exact (piece_plain unquoted line notSlash).spells

theorem schemaChar_spells (c : CodePoint) :
    Spells names (ofChar '"') (schemaChar c) (codeUnits c) := by
  unfold schemaChar writeChar
  split
  · rename_i escaped found
    obtain ⟨pair, written, rfl, notSlash, rfl⟩ := shortEscape_some found
    exact spells_letter written notSlash
  · rename_i plain
    obtain ⟨unquoted, notSlash⟩ := shortEscape_none plain
    by_cases control : c.val < 0x20
    · have basic : c.val < 0x10000 := by omega
      rw [if_pos control, codeUnits_basic basic]
      exact spells_unicode basic
    · by_cases ascii : 0x7F ≤ c.val
      · by_cases basic : c.val < 0x10000
        · simp only [control, ascii, basic, Bool.true_and, decide_true, if_true, if_false]
          rw [codeUnits_basic basic]
          exact spells_unicode basic
        · have range := c.isLt
          simp only [control, ascii, basic, Bool.true_and, decide_true, if_true, if_false, codeUnits,
            List.flatMap_append]
          exact (spells_unicode (by omega)).append (spells_unicode (by omega))
      · simp only [control, ascii, Bool.true_and, decide_false, Bool.false_eq_true, if_false,
          List.flatMap_cons, List.flatMap_nil, List.append_nil]
        exact spells_safe unquoted notSlash control ascii

theorem tojson_value (s : String) {rest : Text} (apart : ofChar '"' ∉ rest.head?) :
    literalValue names (tojson s ++ rest) = some ((text s).flatMap codeUnits) := by
  have spelled : Spells names (ofChar '"') ((text s).flatMap schemaChar) _ :=
    spells_flatMap fun c _ => schemaChar_spells c
  have value := spelled.literalValue apart
  rw [tojson_chars, List.append_assoc]
  exact value

theorem toolSkeleton_input (req : BuildRequest) : toolSkeleton req = untilInput req ++
    (tojson req.inputSchemaJson ++ (outputLine ++ (tojson req.outputSchemaJson ++ entryPoint))) := by
  simp only [toolSkeleton_parts, untilInput, statements, List.append_assoc]

theorem toolSkeleton_output (req : BuildRequest) : toolSkeleton req =
    untilOutput req ++ (tojson req.outputSchemaJson ++ entryPoint) := by
  simp only [toolSkeleton_input, untilOutput, List.append_assoc]

theorem schemaRead_input (req : BuildRequest) : schemaRead names req (untilInput req) =
    some ((text req.inputSchemaJson).flatMap codeUnits) := by
  have apart : ofChar '"' ∉ (outputLine ++ (tojson req.outputSchemaJson ++ entryPoint)).head? := by
    have first : (outputLine ++ (tojson req.outputSchemaJson ++ entryPoint)).head? =
        some (ofChar ')') := rfl
    rw [first]
    decide
  rw [schemaRead, toolText_eq, toolSkeleton_input]
  simp [tojson_value req.inputSchemaJson apart]

theorem schemaRead_output (req : BuildRequest) : schemaRead names req (untilOutput req) =
    some ((text req.outputSchemaJson).flatMap codeUnits) := by
  have apart : ofChar '"' ∉ entryPoint.head? := by decide
  rw [schemaRead, toolText_eq, toolSkeleton_output]
  simp [tojson_value req.outputSchemaJson apart]

end Reading

def Basic (s : String) : Prop := ∀ c ∈ s.toList, c.toNat < 0x10000

theorem codeUnits_length (s : Text) :
    s.length ≤ (s.flatMap codeUnits).length := by
  induction s with
  | nil => simp
  | cons c s ih =>
    have one : 1 ≤ (codeUnits c).length := by
      unfold codeUnits
      split <;> simp
    simp only [List.flatMap_cons, List.length_append, List.length_cons]
    omega

/- A character outside the basic plane makes the text longer. -/
theorem codeUnits_iff (s : Text) :
    s.flatMap codeUnits = s ↔ ∀ c ∈ s, c.val < 0x10000 := by
  induction s with
  | nil => simp
  | cons c s ih =>
    rw [List.forall_mem_cons, ← ih, List.flatMap_cons]
    by_cases basic : c.val < 0x10000
    · simp [codeUnits, basic]
    · have long := codeUnits_length s
      constructor
      · intro same
        have sizes := congrArg List.length same
        simp only [codeUnits, basic, if_false, List.length_append, List.length_cons,
          List.length_nil] at sizes
        omega
      · exact fun both => absurd both.1 basic

theorem basic_iff (s : String) : (text s).flatMap codeUnits = text s ↔ Basic s := by
  rw [codeUnits_iff, Basic, text, List.forall_mem_map]
  simp only [ofChar_val]

/-- The literals stand for the schemas exactly if these hold characters of the basic plane
    only. -/
theorem schemasReach_iff (names : Text → Option CodePoint) (req : BuildRequest) :
    SchemasReach names req ↔ Basic req.inputSchemaJson ∧ Basic req.outputSchemaJson := by
  rw [SchemasReach, schemaRead_input, schemaRead_output, Option.some.injEq, Option.some.injEq,
    basic_iff, basic_iff]

def smileRequest : BuildRequest :=
  { mailRequest with inputSchemaJson := "\x7b\"title\": \"😀\"\x7d" }

/-- The tool's schema has another title: two surrogates in place of the emoji. -/
theorem smile_becomes_surrogates : (∀ names, ¬ SchemasReach names smileRequest) ∧
    ∀ names, schemaRead names smileRequest (untilInput smileRequest) =
      some (text "\x7b\"title\": \"" ++ [0xD83D, 0xDE00] ++ text "\"\x7d") := by
  have read : ∀ names, schemaRead names smileRequest (untilInput smileRequest) =
      some (text "\x7b\"title\": \"" ++ [0xD83D, 0xDE00] ++ text "\"\x7d") := by
    intro names
    rw [schemaRead_input]
    decide
  refine ⟨?_, read⟩
  intro names reach
  exact absurd ((read names).symm.trans reach.1) (by decide)

end CodeBuilder
