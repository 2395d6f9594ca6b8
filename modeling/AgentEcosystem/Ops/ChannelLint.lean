import AgentEcosystem.Semantics.Raising
import AgentEcosystem.Semantics.RoseTrees
import AgentEcosystem.Text.UnicodeText

/-!
The lint that keeps HTTP libraries in one package. It parses every Python file and walks
over its whole syntax tree, so an import is found however deep it stands.
-/
namespace ChannelLint
open Raising RoseTrees UnicodeText

inductive NodeKind where
  /-- `import a.b, c as d`, with the names that are imported. -/
  | importNames (names : List Text)
  /-- `from m import x`, and `from .m import x`, as nothing reads the level; `from . import x`
      has no module. -/
  | importFrom (module : Option Text)
  | other

structure AstNode where
  kind : NodeKind
  lineno : Option ℕ

abbrev Ast := RoseTree AstNode

inductive ParseFailure where
  | syntaxError
  /-- What else the parser may raise. -/
  | other

/-- The parser and the printer of the language. -/
structure Python where
  parse : Text → Except ParseFailure Ast
  unparse : Ast → Text

def forbidden : List Text := [text "httpx", text "requests"]

/-- `name.split(".")[0]` -/
def rootOf (name : Text) : Text := name.takeWhile (· ≠ ofChar '.')

def isForbiddenImport (node : AstNode) : Bool :=
  match node.kind with
  | .importNames names => names.any fun name => rootOf name ∈ forbidden
  | .importFrom module => rootOf (module.getD []) ∈ forbidden
  | .other => false

/-- What stands below `aae`: the parts of its path from there, and the bytes of a file. -/
structure Entry where
  path : List Text
  content : Option Bytes

inductive LintError where
  | isADirectoryError
  | unicodeDecodeError
  | parserError

/-- The pattern of the glob, which directories match as well. -/
def isPy (entry : Entry) : Bool := (text ".py").isSuffixOf (entry.path.getLastD [])

def inChannels (entry : Entry) : Bool := entry.path.head? == some (text "channels")

section Scan
variable (python : Python)

/-- The source of a file, as `read_text` gives it. -/
def sourceOf (entry : Entry) : Except LintError Text :=
  match entry.content with
  | none => .error .isADirectoryError
  | some bytes =>
    match decodeStrict bytes with
    | none => .error .unicodeDecodeError
    | some source => .ok (universalNewlines source)

def violation (node : Ast) : ℕ × Text := (node.label.lineno.getD 0, python.unparse node)

def scanFile (entry : Entry) : Except LintError (List (ℕ × Text)) := do
  match python.parse (← sourceOf entry) with
  | .error .syntaxError => return []
  | .error .other => throw .parserError
  | .ok tree =>
    return ((walk tree).filter fun node => isForbiddenImport node.label).map (violation python)

def linted (entries : List Entry) : List Entry :=
  entries.filter fun entry => isPy entry && !inChannels entry

abbrev Violation := List Text × ℕ × Text

def scanEntry (entry : Entry) : Except LintError (List Violation) := do
  return (← scanFile python entry).map (entry.path, ·)

/-- Without a directory `aae` there is nothing to look at. -/
def scanTree : Option (List Entry) → Except LintError (List Violation)
  | none => .ok []
  | some entries => do
    let found ← (linted entries).mapM (scanEntry python)
    return found.flatten

/-- The exit code of the process. An exception ends it with 1. -/
def main (aae : Option (List Entry)) : ℕ :=
  match scanTree python aae with
  | .ok [] => 0
  | _ => 1

end Scan

def NamedFrom (root name : Text) : Prop := name = root ∨ ∃ rest, name = root ++ ofChar '.' :: rest

theorem rootOf_eq_iff {root : Text} (undotted : ofChar '.' ∉ root) (name : Text) :
    rootOf name = root ↔ NamedFrom root name := by
  have whole : ∀ c ∈ root, decide (c ≠ ofChar '.') = true := by
    intro c mem
    exact decide_eq_true fun same => undotted (same ▸ mem)
  constructor
  · intro same
    have split := List.takeWhile_append_dropWhile (p := (· ≠ ofChar '.')) (l := name)
    have first : name.takeWhile (· ≠ ofChar '.') = root := same
    rw [first] at split
    rcases behind : name.dropWhile (· ≠ ofChar '.') with _ | ⟨c, rest⟩
    · left
      rw [← split, behind, List.append_nil]
    · right
      have left_over : name.dropWhile (· ≠ ofChar '.') ≠ [] := by
        rw [behind]
        exact List.cons_ne_nil c rest
      have stops := List.head_dropWhile_not (· ≠ ofChar '.') left_over
      simp only [behind, List.head_cons, decide_eq_false_iff_not, not_not] at stops
      refine ⟨rest, ?_⟩
      rw [← split, behind, stops]
  · rintro (rfl | ⟨rest, rfl⟩)
    · rw [rootOf]
      nth_rewrite 1 [← List.append_nil name]
      rw [List.takeWhile_append_of_pos whole, List.takeWhile_nil, List.append_nil]
    · rw [rootOf, List.takeWhile_append_of_pos whole, List.takeWhile_cons_of_neg (by simp),
        List.append_nil]

def Forbidden (name : Text) : Prop := ∃ root ∈ forbidden, NamedFrom root name

theorem rootOf_forbidden (name : Text) : rootOf name ∈ forbidden ↔ Forbidden name := by
  have undotted : ∀ root ∈ forbidden, ofChar '.' ∉ root := by decide
  constructor
  · intro mem
    exact ⟨rootOf name, mem, (rootOf_eq_iff (undotted _ mem) name).mp rfl⟩
  · rintro ⟨root, mem, named⟩
    rw [(rootOf_eq_iff (undotted root mem) name).mpr named]
    exact mem

def ImportsHttp (node : AstNode) : Prop :=
  (∃ names, node.kind = .importNames names ∧ ∃ name ∈ names, Forbidden name) ∨
    ∃ module, node.kind = .importFrom (some module) ∧ Forbidden module

theorem isForbiddenImport_iff (node : AstNode) :
    isForbiddenImport node = true ↔ ImportsHttp node := by
  obtain ⟨kind, lineno⟩ := node
  cases kind with
  | importNames names => simp [isForbiddenImport, ImportsHttp, rootOf_forbidden]
  | importFrom module =>
    cases module with
    | none => simp [isForbiddenImport, ImportsHttp, show rootOf [] ∉ forbidden by decide]
    | some module => simp [isForbiddenImport, ImportsHttp, rootOf_forbidden]
  | other => simp [isForbiddenImport, ImportsHttp]

section Findings
variable {python : Python}

/-- The file can be read, and has a syntax error or nowhere in its tree an import of an
    HTTP library. -/
def Passes (python : Python) (entry : Entry) : Prop :=
  ∃ source, sourceOf entry = .ok source ∧
    (python.parse source = .error .syntaxError ∨
      ∃ tree, python.parse source = .ok tree ∧ ∀ node, Inside node tree → ¬ImportsHttp node.label)

def httpImports (python : Python) (entry : Entry) : List Ast :=
  match sourceOf entry with
  | .error _ => []
  | .ok source =>
    match python.parse source with
    | .error _ => []
    | .ok tree => (subtrees tree).filter fun node => isForbiddenImport node.label

theorem scanFile_perm {entry : Entry} {found : List (ℕ × Text)}
    (scanned : scanFile python entry = .ok found) :
    found.Perm ((httpImports python entry).map (violation python)) := by
  simp only [scanFile, bind, Except.bind] at scanned
  rw [httpImports]
  cases read : sourceOf entry with
  | error e =>
    rw [read] at scanned
    cases scanned
  | ok source =>
    rw [read] at scanned
    dsimp only at scanned ⊢
    cases parsed : python.parse source with
    | error failure =>
      rw [parsed] at scanned
      cases failure with
      | syntaxError =>
        cases scanned
        exact .nil
      | other => cases scanned
    | ok tree =>
      rw [parsed] at scanned
      cases scanned
      exact ((walk_perm tree).filter _).map _

theorem scanFile_nil {entry : Entry} : scanFile python entry = .ok [] ↔ Passes python entry := by
  unfold scanFile
  rw [Passes]
  rcases sourceOf entry with e | source
  · simp [bind, Except.bind]
  · simp only [bind, Except.bind, Except.ok.injEq, exists_eq_left']
    rcases python.parse source with (_ | _) | tree
    · simp [pure, Except.pure]
    · simp [throw, throwThe, MonadExceptOf.throw]
    · simp [pure, Except.pure, List.filter_eq_nil_iff, mem_walk, isForbiddenImport_iff]

def reported (python : Python) (entry : Entry) : List Violation :=
  (httpImports python entry).map fun node => (entry.path, violation python node)

theorem scanEntry_perm {entry : Entry} {found : List Violation}
    (scanned : scanEntry python entry = .ok found) : found.Perm (reported python entry) := by
  obtain ⟨inFile, scannedFile, rest⟩ := ok_of_bind scanned
  cases rest
  have same := (scanFile_perm scannedFile).map (Prod.mk entry.path)
  rwa [List.map_map] at same

theorem scanEntry_nil {entry : Entry} : scanEntry python entry = .ok [] ↔ Passes python entry := by
  rw [← scanFile_nil, scanEntry]
  cases scanFile python entry with
  | error e => simp [bind, Except.bind]
  | ok found => simp [bind, Except.bind, pure, Except.pure]

theorem flatten_perm {entries : List Entry} {found : List (List Violation)}
    (scanned : entries.mapM (scanEntry python) = .ok found) :
    found.flatten.Perm (entries.flatMap (reported python)) := by
  induction entries generalizing found with
  | nil =>
    cases scanned
    exact .nil
  | cons entry entries ih =>
    rw [List.mapM_cons] at scanned
    obtain ⟨first, scannedFirst, scanned⟩ := ok_of_bind scanned
    obtain ⟨later, scannedLater, scanned⟩ := ok_of_bind scanned
    cases scanned
    rw [List.flatten_cons, List.flatMap_cons]
    exact (scanEntry_perm scannedFirst).append (ih scannedLater)

theorem scanTree_nil {entries : List Entry} :
    scanTree python (some entries) = .ok [] ↔
      ∀ entry ∈ linted entries, scanEntry python entry = .ok [] := by
  rw [scanTree]
  constructor
  · intro clean
    obtain ⟨found, scanned, rest⟩ := ok_of_bind clean
    have none_found : found.flatten = [] := Except.ok.inj rest
    clear clean rest
    generalize linted entries = files at scanned ⊢
    induction files generalizing found with
    | nil => simp
    | cons file files ih =>
      rw [List.mapM_cons] at scanned
      obtain ⟨first, scannedFirst, scanned⟩ := ok_of_bind scanned
      obtain ⟨later, scannedLater, scanned⟩ := ok_of_bind scanned
      cases scanned
      rw [List.flatten_cons, List.append_eq_nil_iff] at none_found
      obtain ⟨rfl, none_later⟩ := none_found
      exact List.forall_mem_cons.mpr ⟨scannedFirst, ih later none_later scannedLater⟩
  · intro each
    rw [mapM_ok (g := fun _ => []) each]
    simp [bind, Except.bind, pure, Except.pure]

end Findings

/-- The lint ends with 0 exactly when every Python file outside the channels can be read
    and either is no Python or imports no HTTP library at any depth; and what it reports,
    if it comes to that, is each import of one in these files once. -/
theorem lint_exact (python : Python) (entries : List Entry) :
    (main python (some entries) = 0 ↔ ∀ entry ∈ linted entries, Passes python entry) ∧
    ∀ violations, scanTree python (some entries) = .ok violations →
      violations.Perm ((linted entries).flatMap (reported python)) := by
  constructor
  · have zero : main python (some entries) = 0 ↔ scanTree python (some entries) = .ok [] := by
      rw [main]
      split
      · simp [*]
      · rename_i other
        exact iff_of_false (by decide) other
    rw [zero, scanTree_nil]
    simp only [scanEntry_nil]
  · intro violations scanned
    obtain ⟨found, scannedFiles, rest⟩ := ok_of_bind scanned
    cases rest
    exact flatten_perm scannedFiles

end ChannelLint
