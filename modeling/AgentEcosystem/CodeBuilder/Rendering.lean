import AgentEcosystem.CodeBuilder.BuildSchemas

/-!
The two files a build renders from its request. Only the schemas are escaped;
name and purpose go into the module's docstring as they are.
-/
namespace CodeBuilder
open JsonText UnicodeText

/-- A character of a string put into a template with `tojson`: JSON in ASCII,
    with what markup reads escaped too. -/
def markupSafe (c : CodePoint) : Text :=
  if c ∈ text "<>&'" then unicodeEscape c.val else [c]

def tojson (s : String) : Text := (writeString true (text s)).flatMap markupSafe

def pythonBool (b : Bool) : String := if b then "True" else "False"

def texts (parts : List String) : Text := parts.flatMap text

def toolSkeleton (req : BuildRequest) : Text :=
  texts [
    "\"\"\"", req.toolName, " — generated by Code Builder\n\n",
    "Purpose: ", req.purpose, "\n",
    "Risk tier: ", req.riskTier.value, "\n",
    "Network required: ", pythonBool req.networkRequired, "\n",
    "\"\"\"\n",
    "from __future__ import annotations\n\n",
    "import json\n",
    "from typing import Any\n\n\n",
    "INPUT_SCHEMA: dict = json.loads("] ++ tojson req.inputSchemaJson ++
  text ")\nOUTPUT_SCHEMA: dict = json.loads(" ++ tojson req.outputSchemaJson ++
  texts [
    ")\n\n\n",
    "def run(payload: dict[str, Any]) -> dict[str, Any]:\n",
    "    \"\"\"Tool entry point. Replace with real logic.\"\"\"\n",
    "    # Placeholder: echo the validated payload keys.\n",
    "    return \x7b\"echoed_keys\": sorted(payload.keys())\x7d\n"]

def testSkeleton (req : BuildRequest) : Text :=
  texts [
    "\"\"\"Tests for ", req.toolName, " — generated by Code Builder.\"\"\"\n",
    "from __future__ import annotations\n\n",
    "import tool\n\n\n",
    "def test_run_returns_dict() -> None:\n",
    "    out = tool.run(\x7b\"k\": 1\x7d)\n",
    "    assert isinstance(out, dict)\n\n\n",
    "def test_schemas_present() -> None:\n",
    "    assert tool.INPUT_SCHEMA\n",
    "    assert tool.OUTPUT_SCHEMA\n"]

def encoded (t : Text) : Except BuildError Bytes :=
  match encode t with
  | some bytes => .ok bytes
  | none => .error .unicodeEncodeError

def render (req : BuildRequest) : Except BuildError (Bytes × Bytes) := do
  return (← encoded (toolSkeleton req), ← encoded (testSkeleton req))

theorem tojson_characters (s : String) : Characters (tojson s) := by
  have written : Characters (writeString true (text s)) := writeString_characters (characters_text s)
  apply characters_flatMap
  intro c mem
  unfold markupSafe
  split
  · exact characters_of_ascii (unicodeEscape_ascii _)
  · intro d same
    rw [List.mem_singleton.mp same]
    exact written c mem

theorem texts_characters (parts : List String) : Characters (texts parts) :=
  characters_flatMap fun part _ => characters_text part

theorem toolSkeleton_characters (req : BuildRequest) : Characters (toolSkeleton req) := by
  unfold toolSkeleton
  apply characters_append _ (texts_characters _)
  apply characters_append _ (tojson_characters _)
  apply characters_append _ (characters_text _)
  exact characters_append (texts_characters _) (tojson_characters _)

theorem encoded_characters {t : Text} (h : Characters t) :
    encoded t = .ok (t.flatMap encodeChar) := by
  rw [encoded, encode_of_characters h]

theorem render_ok (req : BuildRequest) : render req =
    .ok ((toolSkeleton req).flatMap encodeChar, (testSkeleton req).flatMap encodeChar) := by
  have tests : Characters (testSkeleton req) := texts_characters _
  rw [render, encoded_characters (toolSkeleton_characters req), encoded_characters tests]
  rfl

end CodeBuilder
