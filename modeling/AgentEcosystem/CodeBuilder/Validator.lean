import AgentEcosystem.CodeBuilder.BuildSchemas
import AgentEcosystem.Decimal.NearestRounding
import Mathlib.Data.Int.Log
import Mathlib.Data.Rat.Floor

/-!
What the validator finds in the output of a test run. Each regular expression is
a search over the text; as every one of them ends at a fixed word or sign, a
greedy run of characters has one possible end.
-/
namespace CodeBuilder
open JsonText NearestRounding UnicodeText

/-- `float` of a decimal that is not negative: the nearest number of 53 bits. -/
def nearestFloat (q : ℚ) : Float64 :=
  if q = 0 then .finite 0
  else
    let rounded := roundGrid ((2 : ℚ) ^ max (Int.log 2 q - 52) (-1074)) q
    if rounded < 2 ^ 1024 then .finite rounded else .infinity

def Float64.le : Float64 → Float64 → Bool
  | .finite p, .finite q => decide (p ≤ q)
  | .finite _, .infinity => true
  | .infinity, .finite _ => false
  | .infinity, .infinity => true

def readInt (ds : List (Fin 10)) : Except BuildError ℕ :=
  if ds.length ≤ maxStrDigits then .ok (ofDigits ds) else .error .valueError

def readFloat (whole fraction : List (Fin 10)) : Float64 :=
  nearestFloat (ofDigits whole + ofDigits fraction / 10 ^ fraction.length)

/-- The first match of an expression, at the text's start or later. -/
def searchFrom (find : Text → Option α) : Text → Option α
  | [] => find []
  | c :: rest =>
    match find (c :: rest) with
    | some found => some found
    | none => searchFrom find rest

/-- The first match of an expression that begins with `^`. -/
def searchLines (find : Text → Option α) : Bool → Text → Option α
  | atStart, [] => if atStart then find [] else none
  | atStart, c :: rest =>
    match if atStart then find (c :: rest) else none with
    | some found => some found
    | none => searchLines find (c == ofChar '\n') rest

section Expressions
variable (data : CharacterData)

/-- `\d*` -/
def spanDigits : Text → List (Fin 10) × Text
  | [] => ([], [])
  | c :: rest =>
    match data.digit c with
    | none => ([], c :: rest)
    | some d => (d :: (spanDigits rest).1, (spanDigits rest).2)

/-- `(\d+)` with a word behind it. -/
def digitsBefore (word : String) (cs : Text) : Option (List (Fin 10)) :=
  let (ds, rest) := spanDigits data cs
  if ds ≠ [] ∧ (text word).isPrefixOf rest then some ds else none

/-- `[\w/\\.:\-]` -/
def isNodeChar (c : CodePoint) : Bool := data.isWord c || (text "/\\.:-").contains c

/-- `[\w/\\.:\-]+::\S+` on a whole run of characters that are no spaces. -/
def isNode (run : Text) : Bool :=
  (List.range run.length).any fun i =>
    decide (1 ≤ i) && (run.take i).all (isNodeChar data) && (text "::").isPrefixOf (run.drop i) &&
      decide (i + 2 < run.length)

/-- `PASSED_RE` at a line's start: the node and what follows the match. -/
def matchPassed (cs : Text) : Option (Text × Text) :=
  let (run, rest) := cs.span fun c => !isSpace c
  let (gap, rest) := rest.span isSpace
  if isNode data run ∧ gap ≠ [] then (afterWord "PASSED" rest).map fun rest => (run, rest)
  else none

/-- The nodes of all matches of `PASSED_RE`, which do not overlap. -/
def findPassed : ℕ → Bool → Text → List Text
  | 0, _, _ => []
  | _ + 1, _, [] => []
  | fuel + 1, atStart, c :: rest =>
    match if atStart then matchPassed data (c :: rest) else none with
    | some (node, rest) => node :: findPassed fuel false rest
    | none => findPassed fuel (c == ofChar '\n') rest

/-- `(\d+(?:\.\d+)?)%` -/
def matchPercent (cs : Text) : Option Float64 :=
  match spanDigits data cs with
  | ([], _) => none
  | (_, []) => none
  | (whole, c :: rest) =>
    if c = ofChar '%' then some (readFloat whole [])
    else if c = ofChar '.' then
      match spanDigits data rest with
      | ([], _) => none
      | (fraction, rest) =>
        if rest.head? = some (ofChar '%') then some (readFloat whole fraction) else none
    else none

/-- `COVERAGE_RE`: the first percentage on the line, behind the word. -/
def matchCoverage (cs : Text) : Option Float64 :=
  (afterWord "TOTAL" cs).bind fun rest =>
    searchFrom (matchPercent data) (rest.takeWhile fun c => c != ofChar '\n')

structure ValidationResult where
  ok : Bool
  passedTests : List Text
  failedTests : ℕ
  coveragePct : Float64
  raw : Text
  deriving DecidableEq, Repr

def validate (stdout : Text) (minCoverage : Float64) : Except BuildError ValidationResult := do
  let passedIds := findPassed data (stdout.length + 1) true stdout
  let passedCt ← match searchLines (digitsBefore data " passed") true stdout with
    | some ds => readInt ds
    | none => pure passedIds.length
  let failCt ← match searchFrom (digitsBefore data " failed") stdout with
    | some ds => readInt ds
    | none => pure 0
  let cov := (searchFrom (matchCoverage data) stdout).getD (.finite 0)
  let ok := failCt == 0 && decide (0 < passedCt) && minCoverage.le cov
  -- without a line for each test the ids are made up
  let passedIds := if passedIds = [] ∧ passedCt ≠ 0 then
    (List.range passedCt).map fun i => text s!"test_{i + 1}" else passedIds
  return ⟨ok, passedIds, failCt, cov, stdout⟩

end Expressions

example : validate asciiData (text "2 passed in 0.01s\nTOTAL  100%\n") (.finite 0) =
    .ok ⟨true, [text "test_1", text "test_2"], 0, .finite 100,
      text "2 passed in 0.01s\nTOTAL  100%\n"⟩ := by decide +kernel

end CodeBuilder
