import AgentEcosystem.Text.UnicodeText
import Mathlib.Algebra.Group.Int.Defs
import Mathlib.Algebra.Group.Nat.Defs
import Mathlib.Logic.Function.Basic

/-!
How an import of a source file gets its code: from the byte-code file beside it, if that
passes the checks on its header, and else from the source, which is then cached there.
Only the header ties the byte-code to the source, by time and size or by a hash.
-/
namespace PythonImport
open UnicodeText

inductive HashCheck where
  | always | default | never
  deriving DecidableEq, Repr

/-- What an import uses from the interpreter. `Code` is what a source compiles to. -/
structure Importer (Code Exception : Type) where
  magicNumber : Bytes
  cacheTag : Option String
  sourceHash : Bytes → Bytes
  checkHashBasedPycs : HashCheck
  /-- Nothing is cached, by `sys.dont_write_bytecode` or for want of a writable directory. -/
  dontWriteBytecode : Bool
  compile : Bytes → Except Exception Code
  marshalLoads : Bytes → Except Exception Code
  marshalDumps : Code → Bytes
  /-- What a byte-code file that fails its checks raises where there is no source. -/
  refused : Bytes → Exception
  magic_length : magicNumber.length = 4
  hash_length : ∀ source, (sourceHash source).length = 8
  loads_dumps : ∀ code, marshalLoads (marshalDumps code) = .ok code

def packUint32 (n : ℕ) : Bytes :=
  [UInt8.ofNat n, UInt8.ofNat (n / 2 ^ 8), UInt8.ofNat (n / 2 ^ 16), UInt8.ofNat (n / 2 ^ 24)]

def unpackUint32 (data : Bytes) : ℕ := data.foldr (fun byte n => byte.toNat + 2 ^ 8 * n) 0

/-- `data[first:last]` -/
def slice (first last : ℕ) (data : Bytes) : Bytes := (data.take last).drop first

/-- `cache_from_source`, without a `sys.pycache_prefix` -/
def cacheFromSource (tag path : String) : String :=
  let reversed := path.toList.reverse
  let tail := reversed.takeWhile (· ≠ '/')
  let head := (((reversed.dropWhile (· ≠ '/')).drop 1).dropWhile (· = '/')).reverse
  let sep := if '.' ∈ tail then ['.'] else []
  let rest := (tail.takeWhile (· ≠ '.')).reverse
  let base := ((tail.dropWhile (· ≠ '.')).drop 1).reverse
  let directory := if head = [] then [] else head ++ ['/']
  String.ofList (directory ++ "__pycache__/".toList ++ (if base = [] then rest else base) ++ sep) ++
    tag ++ ".pyc"

section Loader
variable {Code Exception : Type} (py : Importer Code Exception)

/-- `_classify_pyc`; `none` where it raises. -/
def classifyPyc (data : Bytes) : Option ℕ :=
  if data.take 4 ≠ py.magicNumber ∨ data.length < 16 then none
  else
    let flags := unpackUint32 (slice 4 8 data)
    if flags < 4 then some flags else none

def hashBased (flags : ℕ) : Bool := flags % 2 = 1

def checkSource (flags : ℕ) : Bool := flags / 2 % 2 = 1

def hashesSource (flags : ℕ) : Bool :=
  py.checkHashBasedPycs ≠ .never &&
    (checkSource flags || py.checkHashBasedPycs = .always)

/-- `_validate_hash_pyc` or `_validate_timestamp_pyc` -/
def validatePyc (source : Bytes) (mtime : ℤ) (data : Bytes) (flags : ℕ) : Bool :=
  if hashBased flags then !hashesSource py flags || slice 8 16 data = py.sourceHash source
  else
    unpackUint32 (slice 8 12 data) = (mtime % 2 ^ 32).toNat &&
      unpackUint32 (slice 12 16 data) = source.length % 2 ^ 32

/-- `_code_to_hash_pyc` or `_code_to_timestamp_pyc` -/
def codeToPyc (source : Bytes) (mtime : ℤ) (flags : Option ℕ) (code : Code) : Bytes :=
  let header :=
    match flags.filter hashBased with
    | some flags => packUint32 flags ++ py.sourceHash source
    | none => packUint32 0 ++ packUint32 (mtime % 2 ^ 32).toNat ++ packUint32 source.length
  py.magicNumber ++ header ++ py.marshalDumps code

def byteCodePath (path : String) : Option String := py.cacheTag.map (cacheFromSource · path)

def cachedPyc (files : String → Option Bytes) (path : String) : Option Bytes :=
  (byteCodePath py path).bind files

def validByteCode (files : String → Option Bytes) (path : String) (source : Bytes) (mtime : ℤ) :
    Option Bytes := do
  let data ← cachedPyc py files path
  let flags ← classifyPyc py data
  if validatePyc py source mtime data flags then some (data.drop 16) else none

/-- `_cache_bytecode`; the kind of the byte-code file that is replaced is kept. -/
def cacheByteCode (files : String → Option Bytes) (path : String) (source : Bytes) (mtime : ℤ)
    (code : Code) : String → Option Bytes :=
  match byteCodePath py path with
  | some cache =>
    if py.dontWriteBytecode then files
    else
      let flags := (cachedPyc py files path).bind (classifyPyc py)
      Function.update files cache (some (codeToPyc py source mtime flags code))
  | none => files

/-- `SourceLoader.get_code`, for a source last modified at `mtime`: the code or what is
    raised, and the files it leaves. -/
def getCode (files : String → Option Bytes) (path : String) (source : Bytes) (mtime : ℤ) :
    Except Exception Code × (String → Option Bytes) :=
  match validByteCode py files path source mtime with
  | some data => (py.marshalLoads data, files)
  | none =>
    match py.compile source with
    | .ok code => (.ok code, cacheByteCode py files path source mtime code)
    | .error e => (.error e, files)

/-- `SourcelessFileLoader.get_code` -/
def getByteCode (data : Bytes) : Except Exception Code :=
  match classifyPyc py data with
  | some _ => py.marshalLoads (data.drop 16)
  | none => .error (py.refused data)

variable {py}

theorem header_length (py : Importer Code Exception) (source : Bytes) (mtime : ℤ)
    (flags : Option ℕ) (code : Code) :
    ∃ header, header.length = 16 ∧
      codeToPyc py source mtime flags code = header ++ py.marshalDumps code := by
  unfold codeToPyc
  split
  · exact ⟨_, by simp [py.magic_length, py.hash_length, packUint32], rfl⟩
  · exact ⟨_, by simp [py.magic_length, packUint32], rfl⟩

/- What is cached is read back as the code it was made from. -/
theorem getByteCode_cached {source : Bytes} {mtime : ℤ} {flags : Option ℕ} {code code' : Code}
    (read : getByteCode py (codeToPyc py source mtime flags code) = .ok code') : code' = code := by
  obtain ⟨header, length, split⟩ := header_length py source mtime flags code
  have body : (header ++ py.marshalDumps code).drop 16 = py.marshalDumps code :=
    List.drop_left' length
  rw [split, getByteCode] at read
  split at read
  · rw [body, py.loads_dumps] at read
    exact (Except.ok.inj read).symm
  · cases read

theorem getCode_from {files : String → Option Bytes} {path : String} {source : Bytes} {mtime : ℤ}
    {code : Code} (got : (getCode py files path source mtime).1 = .ok code) :
    (∃ data, cachedPyc py files path = some data ∧ getByteCode py data = .ok code) ∨
      py.compile source = .ok code := by
  unfold getCode at got
  split at got
  · next byteCode valid =>
    obtain ⟨data, cached, valid⟩ := Option.bind_eq_some_iff.mp valid
    obtain ⟨flags, classified, valid⟩ := Option.bind_eq_some_iff.mp valid
    split at valid
    · cases valid
      exact .inl ⟨data, cached, by rw [getByteCode, classified]; exact got⟩
    · cases valid
  · split at got
    · next code' compiled => exact .inr (compiled.trans got)
    · cases got

theorem getCode_compiles {files : String → Option Bytes} {path : String} {source : Bytes}
    {mtime : ℤ} (stale : validByteCode py files path source mtime = none) :
    (getCode py files path source mtime).1 = py.compile source := by
  rw [getCode, stale]
  rcases py.compile source with e | code <;> rfl

theorem validByteCode_uncached {files : String → Option Bytes} {path : String}
    (uncached : cachedPyc py files path = none) (source : Bytes) (mtime : ℤ) :
    validByteCode py files path source mtime = none := by
  rw [validByteCode, uncached]
  rfl

theorem getCode_files (py : Importer Code Exception) (files : String → Option Bytes)
    (path : String) (source : Bytes) (mtime : ℤ) : (getCode py files path source mtime).2 = files ∨
      ∃ cache code flags, byteCodePath py path = some cache ∧ py.compile source = .ok code ∧
        (getCode py files path source mtime).2 =
          Function.update files cache (some (codeToPyc py source mtime flags code)) := by
  unfold getCode
  split
  · exact .inl rfl
  · split
    · next code compiled =>
      unfold cacheByteCode
      split
      · next cache isCache =>
        split
        · exact .inl rfl
        · exact .inr ⟨cache, code, _, isCache, compiled, rfl⟩
      · exact .inl rfl
    · exact .inl rfl

end Loader

theorem cacheFromSource_pyc (tag path : String) :
    ∃ stem, cacheFromSource tag path = stem ++ ".pyc" := ⟨_, rfl⟩

/- A module with a plain name, in a directory whose path ends in no separator. -/
theorem cacheFromSource_py (tag : String) {directory base : String} (front : List Char) {c : Char}
    (ends : directory.toList = front ++ [c]) (inside : c ≠ '/') (named : base ≠ "")
    (plain : ∀ d ∈ base.toList, d ≠ '/' ∧ d ≠ '.') :
    cacheFromSource tag (directory ++ "/" ++ base ++ ".py") =
      directory ++ "/__pycache__/" ++ base ++ "." ++ tag ++ ".pyc" := by
  set tail := 'y' :: 'p' :: '.' :: base.toList.reverse with isTail
  set head := c :: front.reverse with isHead
  have path : (directory ++ "/" ++ base ++ ".py").toList.reverse = tail ++ '/' :: head := by
    simp [ends, isTail, isHead]
  have noSep : ∀ d ∈ tail, decide (d ≠ '/') = true := by
    simp only [isTail, List.forall_mem_cons, List.mem_reverse, decide_eq_true_eq]
    exact ⟨by decide, by decide, by decide, fun d mem => (plain d mem).1⟩
  have noDot : ∀ d ∈ ['y', 'p'], decide (d ≠ '.') = true := by simp
  have notEmpty : base.toList.reverse.reverse ≠ [] := by simpa using named
  have headOut : directory.toList = head.reverse := by rw [ends, isHead]; simp
  rw [cacheFromSource, path]
  simp only [List.takeWhile_append_of_pos noSep, List.dropWhile_append_of_pos noSep]
  have stop : List.takeWhile (fun d => decide (d ≠ '/')) ('/' :: head) = [] := by simp
  have stay : List.dropWhile (fun d => decide (d ≠ '/')) ('/' :: head) = '/' :: head := by simp
  have kept : List.dropWhile (fun d => decide (d = '/')) head = head := by simp [isHead, inside]
  have dotted : tail = ['y', 'p'] ++ '.' :: base.toList.reverse := rfl
  have rest : List.dropWhile (fun d => decide (d ≠ '.')) tail = '.' :: base.toList.reverse := by
    rw [dotted, List.dropWhile_append_of_pos noDot]
    simp
  have dot : '.' ∈ tail := by simp [isTail]
  have some : head.reverse ≠ [] := by simp [isHead]
  rw [stop, stay, List.append_nil, List.drop_succ_cons, List.drop_zero, kept, rest,
    List.drop_succ_cons, List.drop_zero, if_pos dot, if_neg notEmpty, if_neg some, ← headOut]
  apply String.toList_injective
  simp

end PythonImport
