import AgentEcosystem.Preregistration.CanonicalJson
import AgentEcosystem.Semantics.Raising

/-!
What the ban on floats reaches. It looks at the values and never at the keys of a
dict, and the encoder writes a key that is a float as a string.
-/
namespace CanonicalJson
open JsonText Raising UnicodeText

def DictKey.isFloat : DictKey → Bool
  | .float _ => true
  | _ => false

inductive Place where
  | value | key
  deriving DecidableEq, Repr

/-- A float occurs somewhere, as a value or as a key. -/
inductive FloatAt : Place → PyValue → Prop where
  | value (f : PyFloat) : FloatAt .value (.float f)
  | key {ms : List (DictKey × PyValue)} {m : DictKey × PyValue} :
      m ∈ ms → m.1.isFloat = true → FloatAt .key (.dict ms)
  | list {place : Place} {vs : List PyValue} {v : PyValue} :
      v ∈ vs → FloatAt place v → FloatAt place (.list vs)
  | tuple {place : Place} {vs : List PyValue} {v : PyValue} :
      v ∈ vs → FloatAt place v → FloatAt place (.tuple vs)
  | dict {place : Place} {ms : List (DictKey × PyValue)} {m : DictKey × PyValue} :
      m ∈ ms → FloatAt place m.2 → FloatAt place (.dict ms)

def Sortable {α : Type} (ms : List (DictKey × α)) : Prop :=
  ms.length ≤ 1 ∨ ms.all (fun m => m.1.isStr) ∨ ms.all (fun m => m.1.isNumber)

def inOrder {α : Type} (nanLe : DictKey → DictKey → Bool) (ms : List (DictKey × α)) :
    List (DictKey × α) :=
  ms.insertionSort fun m n => keyLe nanLe m.1 n.1 = true

def DictKey.isWritten : DictKey → Bool
  | .float (.finite _ _) => true
  | .float _ | .other _ => false
  | _ => true

inductive Writable : PyValue → Prop where
  | none : Writable .none
  | bool (b : Bool) : Writable (.bool b)
  | int (n : ℤ) : Writable (.int n)
  | float (q : ℚ) (repr : Text) : Writable (.float (.finite q repr))
  | str (s : Text) : Writable (.str s)
  | decimal (d : DecimalArithmetic.Decimal) : Writable (.decimal d)
  | uuid (u : AgentSchemas.Uuid) : Writable (.uuid u)
  | date (t : AgentSchemas.Timestamp) : Writable (.date t)
  | list {vs : List PyValue} : (∀ v ∈ vs, Writable v) → Writable (.list vs)
  | tuple {vs : List PyValue} : (∀ v ∈ vs, Writable v) → Writable (.tuple vs)
  | dict {ms : List (DictKey × PyValue)} : Sortable ms → (∀ m ∈ ms, m.1.isWritten = true) →
      (∀ m ∈ ms, Writable m.2) → Writable (.dict ms)

/-- Of all parts that cannot be written, the first in the order of writing is a dict
    whose keys do not compare, or something JSON knows no form of. -/
inductive Unserializable (nanLe : DictKey → DictKey → Bool) : PyValue → Prop where
  | other (typeName : String) : Unserializable nanLe (.other typeName)
  | keys {ms : List (DictKey × PyValue)} : ¬ Sortable ms → Unserializable nanLe (.dict ms)
  | list {before after : List PyValue} {v : PyValue} :
      (∀ w ∈ before, Writable w) → Unserializable nanLe v →
      Unserializable nanLe (.list (before ++ v :: after))
  | tuple {before after : List PyValue} {v : PyValue} :
      (∀ w ∈ before, Writable w) → Unserializable nanLe v →
      Unserializable nanLe (.tuple (before ++ v :: after))
  | key {ms before after : List (DictKey × PyValue)} {typeName : String} {v : PyValue} :
      Sortable ms → inOrder nanLe ms = before ++ (.other typeName, v) :: after →
      (∀ n ∈ before, n.1.isWritten = true ∧ Writable n.2) → Unserializable nanLe (.dict ms)
  | member {ms before after : List (DictKey × PyValue)} {m : DictKey × PyValue} :
      Sortable ms → inOrder nanLe ms = before ++ m :: after →
      (∀ n ∈ before, n.1.isWritten = true ∧ Writable n.2) → m.1.isWritten = true →
      Unserializable nanLe m.2 → Unserializable nanLe (.dict ms)

/-- A float anywhere in the value makes the encoder raise a `TypeError`. -/
def FloatsRefused (nanLe : DictKey → DictKey → Bool) (v : PyValue) : Prop :=
  (∃ place, FloatAt place v) → ∃ msg, canonicalDumpsBy nanLe v = .error (.typeError msg)

@[elab_as_elim]
theorem PyValue.nested {P : PyValue → Prop} (none : P .none) (bool : ∀ b, P (.bool b))
    (int : ∀ n, P (.int n)) (float : ∀ f, P (.float f)) (str : ∀ s, P (.str s))
    (decimal : ∀ d, P (.decimal d)) (uuid : ∀ u, P (.uuid u)) (date : ∀ t, P (.date t))
    (list : ∀ vs, (∀ v ∈ vs, P v) → P (.list vs)) (tuple : ∀ vs, (∀ v ∈ vs, P v) → P (.tuple vs))
    (dict : ∀ ms : List (DictKey × PyValue), (∀ m ∈ ms, P m.2) → P (.dict ms))
    (other : ∀ typeName, P (.other typeName)) (v : PyValue) : P v := by
  refine @PyValue.rec P (fun vs => ∀ v ∈ vs, P v) (fun ms => ∀ m ∈ ms, P m.2) (fun m => P m.2)
    none bool int float str decimal uuid date list tuple dict other ?_ ?_ ?_ ?_ ?_ v
  · exact List.forall_mem_nil _
  · intro v vs here later
    exact List.forall_mem_cons.mpr ⟨here, later⟩
  · exact List.forall_mem_nil _
  · intro m ms here later
    exact List.forall_mem_cons.mpr ⟨here, later⟩
  · intro k v here
    exact here

theorem banFloatsMembers_eq (ms : List (DictKey × PyValue)) :
    banFloatsMembers ms = banFloatsElements (ms.map Prod.snd) := by
  induction ms with
  | nil => rfl
  | cons m ms ih => rw [banFloatsMembers, List.map_cons, banFloatsElements, ih]

/- The ban passes over the elements until it meets a float. -/
theorem banFloatsElements_either {vs : List PyValue}
    (each : ∀ v ∈ vs, banFloats v = .ok () ∧ ¬ FloatAt .value v ∨
      banFloats v = .error (.typeError floatMessage) ∧ FloatAt .value v) :
    banFloatsElements vs = .ok () ∧ (∀ v ∈ vs, ¬ FloatAt .value v) ∨
      banFloatsElements vs = .error (.typeError floatMessage) ∧ ∃ v ∈ vs, FloatAt .value v := by
  induction vs with
  | nil => exact .inl ⟨rfl, List.forall_mem_nil _⟩
  | cons v vs ih =>
    obtain ⟨here, later⟩ := List.forall_mem_cons.mp each
    rcases here with ⟨passed, none⟩ | ⟨raised, found⟩
    · rw [banFloatsElements, passed]
      rcases ih later with ⟨passed', none'⟩ | ⟨raised', w, mem, found'⟩
      · exact .inl ⟨passed', List.forall_mem_cons.mpr ⟨none, none'⟩⟩
      · exact .inr ⟨raised', w, List.mem_cons_of_mem v mem, found'⟩
    · rw [banFloatsElements, raised]
      exact .inr ⟨rfl, v, List.mem_cons_self, found⟩

theorem banFloats_either (v : PyValue) : banFloats v = .ok () ∧ ¬ FloatAt .value v ∨
    banFloats v = .error (.typeError floatMessage) ∧ FloatAt .value v := by
  induction v using PyValue.nested with
  | none => exact .inl ⟨rfl, nofun⟩
  | bool b => exact .inl ⟨rfl, nofun⟩
  | int n => exact .inl ⟨rfl, nofun⟩
  | float f => exact .inr ⟨rfl, .value f⟩
  | str s => exact .inl ⟨rfl, nofun⟩
  | decimal d => exact .inl ⟨rfl, nofun⟩
  | uuid u => exact .inl ⟨rfl, nofun⟩
  | date t => exact .inl ⟨rfl, nofun⟩
  | other typeName => exact .inl ⟨rfl, nofun⟩
  | list vs ih =>
    rw [banFloats]
    rcases banFloatsElements_either ih with ⟨passed, none⟩ | ⟨raised, v, mem, found⟩
    · refine .inl ⟨passed, ?_⟩
      rintro (_ | _ | ⟨mem, found⟩)
      exact none _ mem found
    · exact .inr ⟨raised, .list mem found⟩
  | tuple vs ih =>
    rw [banFloats]
    rcases banFloatsElements_either ih with ⟨passed, none⟩ | ⟨raised, v, mem, found⟩
    · refine .inl ⟨passed, ?_⟩
      rintro (_ | _ | _ | ⟨mem, found⟩)
      exact none _ mem found
    · exact .inr ⟨raised, .tuple mem found⟩
  | dict ms ih =>
    rw [banFloats, banFloatsMembers_eq]
    have each : ∀ v ∈ ms.map Prod.snd, banFloats v = .ok () ∧ ¬ FloatAt .value v ∨
        banFloats v = .error (.typeError floatMessage) ∧ FloatAt .value v := by
      intro v mem
      obtain ⟨m, inside, rfl⟩ := List.mem_map.mp mem
      exact ih m inside
    rcases banFloatsElements_either each with ⟨passed, none⟩ | ⟨raised, v, mem, found⟩
    · refine .inl ⟨passed, ?_⟩
      rintro (_ | _ | _ | _ | ⟨mem, found⟩)
      exact none _ (List.mem_map_of_mem mem) found
    · obtain ⟨m, inside, rfl⟩ := List.mem_map.mp mem
      exact .inr ⟨raised, .dict inside found⟩

section Encoder
variable {nanLe : DictKey → DictKey → Bool}

theorem dumpsElements_eq (vs : List PyValue) : dumpsElements nanLe vs = vs.mapM (dumps nanLe) := by
  induction vs with
  | nil => rfl
  | cons v vs ih =>
    rw [dumpsElements, List.mapM_cons, ih]

def writeMember (nanLe : DictKey → DictKey → Bool) (m : DictKey × PyValue) :
    Except CanonicalError Text := do
  return writeString false (← keyText m.1) ++ text ":" ++ (← dumps nanLe m.2)

theorem dumpsMembers_eq (ms : List (DictKey × PyValue)) :
    dumpsMembers nanLe ms = ms.map fun m => (m.1, writeMember nanLe m) := by
  induction ms with
  | nil => rfl
  | cons m ms ih =>
    rw [dumpsMembers, List.map_cons, ih]
    rfl

theorem sortMembers_eq {α : Type} {ms : List (DictKey × α)} (sortable : Sortable ms) :
    sortMembers nanLe ms = .ok (inOrder nanLe ms) := if_pos sortable

theorem sortMembers_raises {α : Type} {ms : List (DictKey × α)} (mixed : ¬ Sortable ms) :
    ∃ msg, sortMembers nanLe ms = .error (.typeError msg) := ⟨_, if_neg mixed⟩

/- Only the keys are looked at. -/
theorem sortable_map {α β : Type} {ms : List (DictKey × α)} {f : DictKey × α → β} :
    Sortable (ms.map fun m => (m.1, f m)) ↔ Sortable ms := by
  simp only [Sortable, List.length_map, List.all_map, Function.comp_def]

theorem inOrder_map {α β : Type} (ms : List (DictKey × α)) (f : DictKey × α → β) :
    inOrder nanLe (ms.map fun m => (m.1, f m)) = (inOrder nanLe ms).map fun m => (m.1, f m) := by
  symm
  apply List.map_insertionSort
  intro m _ n _
  rfl

theorem mem_inOrder {α : Type} {ms : List (DictKey × α)} {m : DictKey × α} :
    m ∈ inOrder nanLe ms ↔ m ∈ ms := List.mem_insertionSort _

theorem dumps_dict_sorted {ms : List (DictKey × PyValue)} (sortable : Sortable ms) :
    dumps nanLe (.dict ms) =
      ((inOrder nanLe ms).mapM (writeMember nanLe)).map
        fun ts => text "\x7b" ++ joinComma ts ++ text "\x7d" := by
  rw [dumps, dumpsMembers_eq, sortMembers_eq (sortable_map.mpr sortable), inOrder_map]
  change (do
    let ts ← ((inOrder nanLe ms).map
      fun m : DictKey × PyValue => (m.1, writeMember nanLe m)).mapM Prod.snd
    return text "\x7b" ++ joinComma ts ++ text "\x7d") = _
  rw [List.mapM_map]
  rfl

theorem dumps_dict_mixed {ms : List (DictKey × PyValue)} (mixed : ¬ Sortable ms) :
    ∃ msg, dumps nanLe (.dict ms) = .error (.typeError msg) := by
  obtain ⟨msg, raised⟩ := sortMembers_raises (fun sortable => mixed (sortable_map.mp sortable))
  refine ⟨msg, ?_⟩
  rw [dumps, dumpsMembers_eq, raised]
  rfl

theorem keyText_ok_iff {k : DictKey} : (∃ t, keyText k = .ok t) ↔ k.isWritten = true := by
  cases k with
  | float f => cases f <;> simp [keyText, DictKey.isWritten]
  | _ => simp [keyText, DictKey.isWritten]

theorem keyText_raises {k : DictKey} {msg : String} (h : keyText k = .error (.typeError msg)) :
    ∃ typeName, k = .other typeName := by
  cases k with
  | float f => cases f <;> cases h
  | other typeName => exact ⟨typeName, rfl⟩
  | _ => cases h

theorem writeMember_ok_iff {m : DictKey × PyValue} : (∃ t, writeMember nanLe m = .ok t) ↔
    m.1.isWritten = true ∧ ∃ t, dumps nanLe m.2 = .ok t := by
  rw [← keyText_ok_iff]
  constructor
  · rintro ⟨t, wrote⟩
    obtain ⟨key, first, wrote⟩ := ok_of_bind wrote
    obtain ⟨value, second, _⟩ := ok_of_bind wrote
    exact ⟨⟨key, first⟩, value, second⟩
  · rintro ⟨⟨key, first⟩, value, second⟩
    exact ⟨_, by rw [writeMember, first, second]; rfl⟩

theorem writeMember_raises_iff {m : DictKey × PyValue} :
    (∃ msg, writeMember nanLe m = .error (.typeError msg)) ↔ (∃ typeName, m.1 = .other typeName) ∨
      m.1.isWritten = true ∧ ∃ msg, dumps nanLe m.2 = .error (.typeError msg) := by
  rcases first : keyText m.1 with e | key
  · have raised : writeMember nanLe m = .error e := by
      rw [writeMember, first]
      rfl
    have unwritten : ¬ m.1.isWritten = true := by
      rw [← keyText_ok_iff, first]
      rintro ⟨t, wrote⟩
      cases wrote
    rw [raised]
    constructor
    · rintro ⟨msg, same⟩
      cases same
      exact .inl (keyText_raises first)
    · rintro (⟨typeName, other⟩ | ⟨wrote, _⟩)
      · rw [other] at first
        cases first
        exact ⟨_, rfl⟩
      · exact absurd wrote unwritten
  · have wrote : m.1.isWritten = true := keyText_ok_iff.mp ⟨key, first⟩
    have passed : (∃ msg, writeMember nanLe m = .error (.typeError msg)) ↔
        ∃ msg, dumps nanLe m.2 = .error (.typeError msg) := by
      rw [writeMember, first]
      rcases dumps nanLe m.2 with e | t
      · exact Iff.rfl
      · exact ⟨nofun, nofun⟩
    rw [passed]
    constructor
    · intro raised
      exact .inr ⟨wrote, raised⟩
    · rintro (⟨typeName, other⟩ | ⟨_, raised⟩)
      · rw [other] at wrote
        cases wrote
      · exact raised

theorem map_ok_iff {r : Except CanonicalError (List Text)} {f : List Text → Text} :
    (∃ t, r.map f = .ok t) ↔ ∃ ts, r = .ok ts := by
  rcases r with e | ts
  · exact ⟨nofun, nofun⟩
  · exact ⟨fun _ => ⟨ts, rfl⟩, fun _ => ⟨f ts, rfl⟩⟩

theorem map_error_iff {r : Except CanonicalError (List Text)} {f : List Text → Text}
    {e : CanonicalError} : r.map f = .error e ↔ r = .error e := by
  rcases r with e' | ts
  · exact ⟨fun h => congrArg _ (Except.error.inj h), fun h => congrArg _ (Except.error.inj h)⟩
  · exact ⟨nofun, nofun⟩

theorem dumps_list_eq (vs : List PyValue) : dumps nanLe (.list vs) =
    (vs.mapM (dumps nanLe)).map fun ts => text "[" ++ joinComma ts ++ text "]" := by
  rw [dumps, dumpsElements_eq]
  rfl

theorem dumps_tuple_eq (vs : List PyValue) : dumps nanLe (.tuple vs) = dumps nanLe (.list vs) := by
  rw [dumps_list_eq, dumps, dumpsElements_eq]
  rfl

theorem list_ok_iff {vs : List PyValue} :
    (∃ t, dumps nanLe (.list vs) = .ok t) ↔ ∀ v ∈ vs, ∃ t, dumps nanLe v = .ok t := by
  rw [dumps_list_eq, map_ok_iff, mapM_ok_iff]

theorem list_error_iff {vs : List PyValue} {e : CanonicalError} :
    dumps nanLe (.list vs) = .error e ↔ ∃ before v after, vs = before ++ v :: after ∧
      (∀ w ∈ before, ∃ t, dumps nanLe w = .ok t) ∧ dumps nanLe v = .error e := by
  rw [dumps_list_eq, map_error_iff, mapM_error_iff]

theorem dict_ok_iff {ms : List (DictKey × PyValue)} (sortable : Sortable ms) :
    (∃ t, dumps nanLe (.dict ms) = .ok t) ↔
      ∀ m ∈ ms, m.1.isWritten = true ∧ ∃ t, dumps nanLe m.2 = .ok t := by
  rw [dumps_dict_sorted sortable, map_ok_iff, mapM_ok_iff]
  simp only [mem_inOrder, writeMember_ok_iff]

theorem dict_error_iff {ms : List (DictKey × PyValue)} (sortable : Sortable ms)
    {e : CanonicalError} : dumps nanLe (.dict ms) = .error e ↔
      ∃ before m after, inOrder nanLe ms = before ++ m :: after ∧
        (∀ n ∈ before, n.1.isWritten = true ∧ ∃ t, dumps nanLe n.2 = .ok t) ∧
        writeMember nanLe m = .error e := by
  rw [dumps_dict_sorted sortable, map_error_iff, mapM_error_iff]
  simp only [writeMember_ok_iff]

theorem dumps_of_writable {v : PyValue} (writable : Writable v) : ∃ t, dumps nanLe v = .ok t := by
  induction writable with
  | list _ ih => exact list_ok_iff.mpr ih
  | tuple _ ih =>
    rw [dumps_tuple_eq]
    exact list_ok_iff.mpr ih
  | dict sortable keys _ ih => exact (dict_ok_iff sortable).mpr fun m mem => ⟨keys m mem, ih m mem⟩
  | _ => exact ⟨_, rfl⟩

theorem dumps_of_unserializable {v : PyValue} (refused : Unserializable nanLe v) :
    ∃ msg, dumps nanLe v = .error (.typeError msg) := by
  have fine : ∀ {before : List (DictKey × PyValue)},
      (∀ n ∈ before, n.1.isWritten = true ∧ Writable n.2) →
      ∀ n ∈ before, n.1.isWritten = true ∧ ∃ t, dumps nanLe n.2 = .ok t :=
    fun written n mem => ⟨(written n mem).1, dumps_of_writable (written n mem).2⟩
  induction refused with
  | other typeName => exact ⟨_, rfl⟩
  | keys mixed => exact dumps_dict_mixed mixed
  | list written _ ih =>
    obtain ⟨msg, raised⟩ := ih
    exact ⟨msg, list_error_iff.mpr
      ⟨_, _, _, rfl, fun w mem => dumps_of_writable (written w mem), raised⟩⟩
  | tuple written _ ih =>
    obtain ⟨msg, raised⟩ := ih
    rw [dumps_tuple_eq]
    exact ⟨msg, list_error_iff.mpr
      ⟨_, _, _, rfl, fun w mem => dumps_of_writable (written w mem), raised⟩⟩
  | @key ms before after typeName v sortable split written =>
    obtain ⟨msg, raised⟩ :
        ∃ msg, writeMember nanLe (.other typeName, v) = .error (.typeError msg) :=
      writeMember_raises_iff.mpr (.inl ⟨typeName, rfl⟩)
    exact ⟨msg, (dict_error_iff sortable).mpr ⟨_, _, _, split, fine written, raised⟩⟩
  | member sortable split written key _ ih =>
    obtain ⟨msg, raised⟩ := writeMember_raises_iff.mpr (.inr ⟨key, ih⟩)
    exact ⟨msg, (dict_error_iff sortable).mpr ⟨_, _, _, split, fine written, raised⟩⟩

/-- What is written is writable, and a `TypeError` comes from what is not. -/
def Tells (nanLe : DictKey → DictKey → Bool) (v : PyValue) : Prop :=
  ((∃ t, dumps nanLe v = .ok t) → Writable v) ∧
    ((∃ msg, dumps nanLe v = .error (.typeError msg)) → Unserializable nanLe v)

theorem elements_tell {vs : List PyValue} (each : ∀ v ∈ vs, Tells nanLe v) :
    ((∃ t, dumps nanLe (.list vs) = .ok t) → ∀ v ∈ vs, Writable v) ∧
    ((∃ msg, dumps nanLe (.list vs) = .error (.typeError msg)) → ∃ before v after,
      vs = before ++ v :: after ∧ (∀ w ∈ before, Writable w) ∧ Unserializable nanLe v) := by
  constructor
  · intro wrote v mem
    exact (each v mem).1 (list_ok_iff.mp wrote v mem)
  · rintro ⟨msg, raised⟩
    obtain ⟨before, v, after, rfl, fine, here⟩ := list_error_iff.mp raised
    refine ⟨before, v, after, rfl, ?_, (each v (by simp)).2 ⟨msg, here⟩⟩
    intro w mem
    exact (each w (List.mem_append_left _ mem)).1 (fine w mem)

theorem dict_tells {ms : List (DictKey × PyValue)} (each : ∀ m ∈ ms, Tells nanLe m.2) :
    Tells nanLe (.dict ms) := by
  by_cases sortable : Sortable ms
  · constructor
    · intro wrote
      have written := (dict_ok_iff sortable).mp wrote
      exact .dict sortable (fun m mem => (written m mem).1)
        fun m mem => (each m mem).1 (written m mem).2
    · rintro ⟨msg, raised⟩
      obtain ⟨before, ⟨k, v⟩, after, split, fine, here⟩ := (dict_error_iff sortable).mp raised
      have inside : ∀ n ∈ before ++ (k, v) :: after, n ∈ ms := by
        intro n mem
        rw [← split] at mem
        exact mem_inOrder.mp mem
      have written : ∀ n ∈ before, n.1.isWritten = true ∧ Writable n.2 := by
        intro n mem
        obtain ⟨key, value⟩ := fine n mem
        exact ⟨key, (each n (inside n (List.mem_append_left _ mem))).1 value⟩
      rcases writeMember_raises_iff.mp ⟨msg, here⟩ with ⟨typeName, other⟩ | ⟨key, value⟩
      · cases other
        exact .key sortable split written
      · exact .member sortable split written key ((each (k, v) (inside _ (by simp))).2 value)
  · obtain ⟨msg, raised⟩ := dumps_dict_mixed sortable
    constructor
    · rintro ⟨t, wrote⟩
      rw [raised] at wrote
      cases wrote
    · intro _
      exact .keys sortable

theorem dumps_converse (v : PyValue) : Tells nanLe v := by
  induction v using PyValue.nested with
  | none => exact ⟨fun _ => .none, nofun⟩
  | bool b => exact ⟨fun _ => .bool b, nofun⟩
  | int n => exact ⟨fun _ => .int n, nofun⟩
  | float f =>
    cases f with
    | finite q repr => exact ⟨fun _ => .float q repr, nofun⟩
    | infinite negative => exact ⟨nofun, nofun⟩
    | nan => exact ⟨nofun, nofun⟩
  | str s => exact ⟨fun _ => .str s, nofun⟩
  | decimal d => exact ⟨fun _ => .decimal d, nofun⟩
  | uuid u => exact ⟨fun _ => .uuid u, nofun⟩
  | date t => exact ⟨fun _ => .date t, nofun⟩
  | other typeName => exact ⟨nofun, fun _ => .other typeName⟩
  | list vs ih =>
    obtain ⟨wrote, refused⟩ := elements_tell ih
    refine ⟨fun h => .list (wrote h), fun h => ?_⟩
    obtain ⟨before, v, after, rfl, fine, here⟩ := refused h
    exact .list fine here
  | tuple vs ih =>
    obtain ⟨wrote, refused⟩ := elements_tell ih
    rw [Tells, dumps_tuple_eq]
    refine ⟨fun h => .tuple (wrote h), fun h => ?_⟩
    obtain ⟨before, v, after, rfl, fine, here⟩ := refused h
    exact .tuple fine here
  | dict ms ih => exact dict_tells ih

end Encoder

/-- A float in the value always makes the encoder raise a `TypeError` exactly if it has no
    float for a key, or one among its values, or something else is refused first. -/
theorem floatsRefused_iff (nanLe : DictKey → DictKey → Bool) (v : PyValue) :
    FloatsRefused nanLe v ↔ ¬ FloatAt .key v ∨ FloatAt .value v ∨ Unserializable nanLe v := by
  rcases banFloats_either v with ⟨passed, none⟩ | ⟨raised, found⟩
  · have encoder : (∃ msg, canonicalDumpsBy nanLe v = .error (.typeError msg)) ↔
        Unserializable nanLe v := by
      have same : (∃ msg, canonicalDumpsBy nanLe v = .error (.typeError msg)) ↔
          ∃ msg, dumps nanLe v = .error (.typeError msg) := by
        rw [canonicalDumpsBy, passed]
        rcases dumps nanLe v with e | t
        · exact Iff.rfl
        · constructor
          · rintro ⟨msg, raised⟩
            cases raised
          · rintro ⟨msg, raised⟩
            cases raised
      rw [same]
      exact ⟨(dumps_converse v).2, dumps_of_unserializable⟩
    have place : (∃ place, FloatAt place v) ↔ FloatAt .key v := by
      constructor
      · rintro ⟨_ | _, found⟩
        · exact absurd found none
        · exact found
      · intro found
        exact ⟨.key, found⟩
    rw [FloatsRefused, place, encoder]
    constructor
    · intro refused
      by_cases key : FloatAt .key v
      · exact .inr (.inr (refused key))
      · exact .inl key
    · rintro (without | found | refused) key
      · exact absurd key without
      · exact absurd found none
      · exact refused
  · have refused : ∃ msg, canonicalDumpsBy nanLe v = .error (.typeError msg) := by
      rw [canonicalDumpsBy, raised]
      exact ⟨_, rfl⟩
    exact ⟨fun _ => .inr (.inl found), fun _ _ => refused⟩

def floatKeyed : PyValue := .dict [(.float (.finite (3 / 2) (text "1.5")), .str (text "x"))]

/-- A float for a key is written as a string. -/
theorem float_key_written :
    (∀ nanLe, canonicalDumpsBy nanLe floatKeyed = .ok (text "\x7b\"1.5\":\"x\"\x7d\n")) ∧
      ∀ nanLe, ¬ FloatsRefused nanLe floatKeyed := by
  have written : ∀ nanLe, canonicalDumpsBy nanLe floatKeyed =
      .ok (text "\x7b\"1.5\":\"x\"\x7d\n") := fun nanLe => rfl
  refine ⟨written, ?_⟩
  intro nanLe refused
  obtain ⟨msg, raised⟩ := refused ⟨.key, .key List.mem_cons_self rfl⟩
  rw [written] at raised
  cases raised

end CanonicalJson
