import AgentEcosystem.Decimal.ContextArithmetic
import AgentEcosystem.Json.JsonText
import AgentEcosystem.Schemas
import Mathlib.Data.List.Sort
import Mathlib.Data.Rat.Defs

/-!
The canonical encoder: keys sorted at every level, no blanks, no float among the
values, one newline at the end.
-/
namespace CanonicalJson
open AgentSchemas DecimalArithmetic JsonText UnicodeText

inductive PyFloat where
  | finite (value : ℚ) (repr : Text)
  | infinite (negative : Bool)
  | nan
  deriving DecidableEq, Repr

inductive DictKey where
  | str (s : Text)
  | int (n : ℤ)
  | float (f : PyFloat)
  | bool (b : Bool)
  | none
  | other (typeName : String)
  deriving DecidableEq, Repr

inductive PyValue where
  | none
  | bool (b : Bool)
  | int (n : ℤ)
  | float (f : PyFloat)
  | str (s : Text)
  | decimal (d : Decimal)
  | uuid (u : Uuid)
  | date (t : Timestamp)
  | list (elements : List PyValue)
  | tuple (elements : List PyValue)
  | dict (members : List (DictKey × PyValue))
  | other (typeName : String)
  deriving Repr

inductive CanonicalError where
  | typeError (msg : String)
  | valueError (msg : String)
  deriving DecidableEq, Repr

def floatMessage : String := "Canonical JSON forbids float — use Decimal"

mutual
def banFloats : PyValue → Except CanonicalError Unit
  | .float _ => .error (.typeError floatMessage)
  | .dict members => banFloatsMembers members
  | .list elements => banFloatsElements elements
  | .tuple elements => banFloatsElements elements
  | _ => .ok ()

def banFloatsElements : List PyValue → Except CanonicalError Unit
  | [] => .ok ()
  | v :: rest => do
    banFloats v
    banFloatsElements rest

def banFloatsMembers : List (DictKey × PyValue) → Except CanonicalError Unit
  | [] => .ok ()
  | (_, v) :: rest => do
    banFloats v
    banFloatsMembers rest
end

def DictKey.number : DictKey → Option ℚ
  | .int n => some n
  | .bool b => some (if b then 1 else 0)
  | .float (.finite q _) => some q
  | _ => Option.none

section Encoder
/- Where `sorted` puts a NaN is left open by the language. -/
variable (nanLe : DictKey → DictKey → Bool)

/-- The order in which keys of one kind are sorted. -/
def keyLe : DictKey → DictKey → Bool
  | .float .nan, l => nanLe (.float .nan) l
  | k, .float .nan => nanLe k (.float .nan)
  | .str s, .str t => decide (s ≤ t)
  | .float (.infinite true), _ => true
  | _, .float (.infinite negative) => !negative
  | k, l =>
    match k.number, l.number with
    | some p, some q => decide (p ≤ q)
    | _, _ => true

def DictKey.isStr : DictKey → Bool
  | .str _ => true
  | _ => false

def DictKey.isNumber : DictKey → Bool
  | .int _ | .bool _ | .float _ => true
  | _ => false

/-- `sorted(dct.items())`: two keys that do not compare make it raise. -/
def sortMembers (members : List (DictKey × α)) : Except CanonicalError (List (DictKey × α)) :=
  if members.length ≤ 1 ∨ members.all (fun m => m.1.isStr) ∨
      members.all (fun m => m.1.isNumber) then
    .ok (members.insertionSort fun m n => keyLe nanLe m.1 n.1 = true)
  else .error (.typeError "'<' not supported between instances of the keys")

def nanMessage : String := "Out of range float values are not JSON compliant"

def keyText : DictKey → Except CanonicalError Text
  | .str s => .ok s
  | .int n => .ok (text (toString n))
  | .float (.finite _ repr) => .ok repr
  | .float _ => .error (.valueError nanMessage)
  | .bool b => .ok (text (if b then "true" else "false"))
  | .none => .ok (text "null")
  | .other typeName => .error (.typeError
      s!"keys must be str, int, float, bool or None, not {typeName}")

mutual
/-- `json.dumps` without `ensure_ascii`, with the compact separators and with
    decimals, identifiers and dates as strings. -/
def dumps : PyValue → Except CanonicalError Text
  | .none => .ok (text "null")
  | .bool b => .ok (text (if b then "true" else "false"))
  | .int n => .ok (text (toString n))
  | .float (.finite _ repr) => .ok repr
  | .float _ => .error (.valueError nanMessage)
  | .str s => .ok (writeString false s)
  | .decimal d => .ok (writeString false (text d.str))
  | .uuid u => .ok (writeString false (text u.str))
  | .date t => .ok (writeString false (text t.iso))
  | .list elements => do return text "[" ++ joinComma (← dumpsElements elements) ++ text "]"
  | .tuple elements => do return text "[" ++ joinComma (← dumpsElements elements) ++ text "]"
  | .dict members => do
    let sorted ← sortMembers nanLe (dumpsMembers members)
    return text "\x7b" ++ joinComma (← sorted.mapM Prod.snd) ++ text "\x7d"
  | .other typeName => .error (.typeError s!"Not JSON-serializable: {typeName}")

def dumpsElements : List PyValue → Except CanonicalError (List Text)
  | [] => .ok []
  | v :: rest => do return (← dumps v) :: (← dumpsElements rest)

/-- What writing each member gives, with the key it is sorted by. -/
def dumpsMembers : List (DictKey × PyValue) → List (DictKey × Except CanonicalError Text)
  | [] => []
  | (k, v) :: rest =>
    (k, do return writeString false (← keyText k) ++ text ":" ++ (← dumps v)) :: dumpsMembers rest
end

def canonicalDumpsBy (obj : PyValue) : Except CanonicalError Text := do
  banFloats obj
  return (← dumps nanLe obj) ++ text "\n"

end Encoder

def nanFirst (_ _ : DictKey) : Bool := true

/-- `canonical_dumps` of values that have no NaN for a key: how one is sorted does not matter. -/
def canonicalDumps (obj : PyValue) : Except CanonicalError Text := canonicalDumpsBy nanFirst obj

def Encodes (v : PyValue) : Prop :=
  banFloats v = .ok () ∧ ∃ t, dumps nanFirst v = .ok t ∧ Characters t

theorem encodes_str (s : String) : Encodes (.str (text s)) :=
  ⟨rfl, _, rfl, writeString_characters (characters_text s)⟩

theorem encodes_bool (b : Bool) : Encodes (.bool b) := ⟨rfl, _, rfl, characters_text _⟩

theorem encodes_int (n : ℤ) : Encodes (.int n) := ⟨rfl, _, rfl, characters_text _⟩

theorem characters_joinComma {parts : List Text} (h : ∀ t ∈ parts, Characters t) :
    Characters (joinComma parts) := by
  induction parts with
  | nil =>
    intro c mem
    cases mem
  | cons t rest ih =>
    have later := ih fun u mem => h u (List.mem_cons_of_mem t mem)
    cases rest with
    | nil => exact h t List.mem_cons_self
    | cons u rest =>
      apply characters_append _ later
      exact characters_append (h t List.mem_cons_self) (characters_text ",")

theorem characters_enclosed {t : Text} (left right : String) (h : Characters t) :
    Characters (text left ++ t ++ text right) :=
  characters_append (characters_append (characters_text left) h) (characters_text right)

theorem encodes_list {elements : List PyValue} (h : ∀ v ∈ elements, Encodes v) :
    Encodes (.list elements) := by
  have banned : banFloatsElements elements = .ok () := by
    induction elements with
    | nil => rfl
    | cons v rest ih =>
      rw [banFloatsElements, (h v List.mem_cons_self).1]
      exact ih fun w mem => h w (List.mem_cons_of_mem v mem)
  have written : ∃ ts, dumpsElements nanFirst elements = .ok ts ∧ ∀ t ∈ ts, Characters t := by
    clear banned
    induction elements with
    | nil => exact ⟨[], rfl, by simp⟩
    | cons v rest ih =>
      obtain ⟨_, t, dumped, chars⟩ := h v List.mem_cons_self
      obtain ⟨ts, dumped', chars'⟩ := ih fun w mem => h w (List.mem_cons_of_mem v mem)
      refine ⟨t :: ts, ?_, ?_⟩
      · rw [dumpsElements, dumped, dumped']
        rfl
      · intro u mem
        rcases List.mem_cons.mp mem with rfl | later
        · exact chars
        · exact chars' u later
  obtain ⟨ts, dumped, chars⟩ := written
  refine ⟨by rw [banFloats]; exact banned, text "[" ++ joinComma ts ++ text "]", ?_, ?_⟩
  · rw [dumps, dumped]
    rfl
  · exact characters_enclosed _ _ (characters_joinComma chars)

theorem mapM_written {members : List (DictKey × Except CanonicalError Text)}
    (h : ∀ m ∈ members, ∃ t, m.2 = .ok t ∧ Characters t) :
    ∃ ts, members.mapM Prod.snd = .ok ts ∧ ∀ t ∈ ts, Characters t := by
  induction members with
  | nil => exact ⟨[], rfl, by simp⟩
  | cons m rest ih =>
    obtain ⟨t, written, chars⟩ := h m List.mem_cons_self
    obtain ⟨ts, written', chars'⟩ := ih fun n mem => h n (List.mem_cons_of_mem m mem)
    refine ⟨t :: ts, ?_, ?_⟩
    · rw [List.mapM_cons, written, written']
      rfl
    · intro u mem
      rcases List.mem_cons.mp mem with rfl | later
      · exact chars
      · exact chars' u later

theorem encodes_dict {members : List (DictKey × PyValue)}
    (h : ∀ m ∈ members, (∃ s, m.1 = .str (text s)) ∧ Encodes m.2) : Encodes (.dict members) := by
  have banned : banFloatsMembers members = .ok () := by
    induction members with
    | nil => rfl
    | cons m rest ih =>
      rw [banFloatsMembers, (h m List.mem_cons_self).2.1]
      exact ih fun n mem => h n (List.mem_cons_of_mem m mem)
  have written : ∀ m ∈ dumpsMembers nanFirst members,
      m.1.isStr = true ∧ ∃ t, m.2 = .ok t ∧ Characters t := by
    clear banned
    induction members with
    | nil => simp [dumpsMembers]
    | cons m rest ih =>
      intro n mem
      rw [dumpsMembers] at mem
      rcases List.mem_cons.mp mem with rfl | later
      · obtain ⟨⟨s, key⟩, _, t, dumped, chars⟩ := h m List.mem_cons_self
        rw [key]
        refine ⟨rfl, writeString false (text s) ++ text ":" ++ t, ?_, ?_⟩
        · rw [keyText, dumped]
          rfl
        · exact characters_append (characters_append
            (writeString_characters (characters_text s)) (characters_text ":")) chars
      · exact ih (fun n mem => h n (List.mem_cons_of_mem m mem)) n later
  let sorted := (dumpsMembers nanFirst members).insertionSort
    fun m n => keyLe nanFirst m.1 n.1 = true
  have sorts : sortMembers nanFirst (dumpsMembers nanFirst members) = .ok sorted := by
    rw [sortMembers, if_pos]
    refine .inr (.inl (List.all_eq_true.mpr ?_))
    intro m mem
    exact (written m mem).1
  have kept : ∀ m ∈ sorted, ∃ t, m.2 = .ok t ∧ Characters t := by
    intro m mem
    exact (written m ((List.mem_insertionSort _).mp mem)).2
  obtain ⟨ts, dumped, chars⟩ := mapM_written kept
  have joined : dumps nanFirst (.dict members) =
      (sorted.mapM Prod.snd).map fun ts => text "\x7b" ++ joinComma ts ++ text "\x7d" := by
    rw [dumps, sorts]
    rfl
  refine ⟨by rw [banFloats]; exact banned, text "\x7b" ++ joinComma ts ++ text "\x7d", ?_, ?_⟩
  · rw [joined, dumped]
    rfl
  · exact characters_enclosed _ _ (characters_joinComma chars)

theorem canonicalDumps_ok {v : PyValue} (h : Encodes v) :
    ∃ t, canonicalDumps v = .ok t ∧ Characters t := by
  obtain ⟨banned, t, dumped, chars⟩ := h
  refine ⟨t ++ text "\n", ?_, characters_append chars (characters_text _)⟩
  rw [canonicalDumps, canonicalDumpsBy, banned, dumped]
  rfl

end CanonicalJson
