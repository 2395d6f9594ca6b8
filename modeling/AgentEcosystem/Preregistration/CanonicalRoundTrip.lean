import AgentEcosystem.Json.JsonRoundTrip
import AgentEcosystem.Preregistration.CanonicalJson

/-!
The canonical text of a value is read back as the value, up to the order of keys,
so that two values with one text differ in nothing else.
-/
namespace CanonicalJson
open JsonText UnicodeText

variable {α β : Type}

def strMembers (ms : List (Text × α)) : List (DictKey × α) := ms.map fun m => (.str m.1, m.2)

/-- Null, booleans, integers, strings, lists and string-keyed dicts, to any depth. -/
inductive Plain : PyValue → Prop where
  | none : Plain .none
  | bool (b : Bool) : Plain (.bool b)
  | int (n : ℤ) : Plain (.int n)
  | str (s : Text) : Plain (.str s)
  | list {vs : List PyValue} (elements : ∀ v ∈ vs, Plain v) : Plain (.list vs)
  | dict {ms : List (DictKey × PyValue)} (strings : ∀ m ∈ ms, ∃ s, m.1 = .str s)
      (distinct : (ms.map Prod.fst).Nodup) (members : ∀ m ∈ ms, Plain m.2) : Plain (.dict ms)

structure PlainValue where
  value : PyValue
  plain : Plain value

/-- Equal but for the order in which dicts hold their members. -/
inductive SameUpToOrder : PyValue → PyValue → Prop where
  | none : SameUpToOrder .none .none
  | bool (b : Bool) : SameUpToOrder (.bool b) (.bool b)
  | int (n : ℤ) : SameUpToOrder (.int n) (.int n)
  | str (s : Text) : SameUpToOrder (.str s) (.str s)
  | list {vs ws : List PyValue} (length : vs.length = ws.length)
      (elements : ∀ (i : ℕ) (hv : i < vs.length) (hw : i < ws.length),
        SameUpToOrder vs[i] ws[i]) : SameUpToOrder (.list vs) (.list ws)
  | dict {ms ns : List (DictKey × PyValue)} (keys : ∀ k, k ∈ ms.map Prod.fst ↔ k ∈ ns.map Prod.fst)
      (values : ∀ k v w, (k, v) ∈ ms → (k, w) ∈ ns → SameUpToOrder v w) :
      SameUpToOrder (.dict ms) (.dict ns)

/- Two values that a third one equals up to order are equal up to order. -/
theorem SameUpToOrder.euclidean {u v w : PyValue} (left : SameUpToOrder u v)
    (right : SameUpToOrder u w) : SameUpToOrder v w := by
  induction left generalizing w with
  | none => exact right
  | bool b => exact right
  | int n => exact right
  | str s => exact right
  | @list us vs length elements ih =>
    cases right with
    | @list _ ws length' elements' =>
      refine .list (length.symm.trans length') ?_
      intro i hv hw
      have hu : i < us.length := length ▸ hv
      exact ih i hu hv (elements' i hu hw)
  | @dict ls ms keys values ih =>
    cases right with
    | @dict _ ns keys' values' =>
      refine .dict (fun k => (keys k).symm.trans (keys' k)) ?_
      intro k v w memV memW
      have key : k ∈ ls.map Prod.fst := (keys k).mpr (List.mem_map_of_mem memV)
      obtain ⟨⟨l, u⟩, memU, rfl⟩ := List.mem_map.mp key
      exact ih l u v memU memV (values' l u w memU memW)

theorem exists_strMembers {ms : List (DictKey × α)} (h : ∀ m ∈ ms, ∃ s, m.1 = .str s) :
    ∃ ns, ms = strMembers ns := by
  induction ms with
  | nil => exact ⟨[], rfl⟩
  | cons m ms ih =>
    obtain ⟨s, key⟩ := h m List.mem_cons_self
    obtain ⟨ns, rfl⟩ := ih fun n mem => h n (List.mem_cons_of_mem m mem)
    exact ⟨(s, m.2) :: ns, by simp [strMembers, ← key]⟩

theorem mem_strMembers {ms : List (Text × α)} {k : DictKey} {v : α} :
    (k, v) ∈ strMembers ms ↔ ∃ s, k = .str s ∧ (s, v) ∈ ms := by
  simp only [strMembers, List.mem_map, Prod.mk.injEq, Prod.exists]
  constructor
  · rintro ⟨s, w, mem, rfl, rfl⟩
    exact ⟨s, rfl, mem⟩
  · rintro ⟨s, rfl, mem⟩
    exact ⟨s, v, mem, rfl, rfl⟩

theorem keys_strMembers (ms : List (Text × α)) :
    (strMembers ms).map Prod.fst = (ms.map Prod.fst).map .str := by
  simp [strMembers]

theorem nodup_strMembers {ms : List (Text × α)} (h : ((strMembers ms).map Prod.fst).Nodup) :
    (ms.map Prod.fst).Nodup := by
  rw [keys_strMembers] at h
  exact h.of_map _

theorem mem_keys_strMembers {ms : List (Text × α)} {k : Text} :
    .str k ∈ (strMembers ms).map Prod.fst ↔ k ∈ ms.map Prod.fst := by
  rw [keys_strMembers, List.mem_map_of_injective fun _ _ => DictKey.str.inj]

theorem value_unique {ms : List (Text × α)} (distinct : (ms.map Prod.fst).Nodup) {k : Text}
    {v w : α} (memV : (k, v) ∈ ms) (memW : (k, w) ∈ ms) : v = w := by
  have same := List.inj_on_of_nodup_map distinct memV memW rfl
  exact (Prod.mk.inj same).2

theorem plain_member {ms : List (Text × PyValue)} (plains : ∀ m ∈ strMembers ms, Plain m.2)
    {m : Text × PyValue} (mem : m ∈ ms) : Plain m.2 :=
  plains (.str m.1, m.2) (mem_strMembers.mpr ⟨m.1, rfl, mem⟩)

def sortByKey (ms : List (Text × α)) : List (Text × α) :=
  ms.insertionSort fun m n => m.1 ≤ n.1

theorem perm_sortByKey (ms : List (Text × α)) : (sortByKey ms).Perm ms :=
  List.perm_insertionSort _ ms

theorem map_sortByKey (f : Text × α → Text × β) (key : ∀ m, (f m).1 = m.1)
    (ms : List (Text × α)) : (sortByKey ms).map f = sortByKey (ms.map f) := by
  apply List.map_insertionSort
  intro m _ n _
  rw [key, key]

theorem sortMembers_strMembers (nanLe : DictKey → DictKey → Bool) (ms : List (Text × α)) :
    sortMembers nanLe (strMembers ms) = .ok (strMembers (sortByKey ms)) := by
  have strings : (strMembers ms).all (fun m => m.1.isStr) = true := by
    rw [List.all_eq_true]
    intro m mem
    obtain ⟨n, _, rfl⟩ := List.mem_map.mp mem
    rfl
  rw [sortMembers, if_pos (.inr (.inl strings)), strMembers, strMembers, sortByKey]
  congr 1
  symm
  apply List.map_insertionSort
  intro m _ n _
  simp [keyLe]

theorem sortByKey_pairwise (ms : List (Text × α)) :
    (sortByKey ms).Pairwise fun m n => m.1 ≤ n.1 := by
  have total : Std.Total fun m n : Text × α => m.1 ≤ n.1 := ⟨fun m n => le_total m.1 n.1⟩
  have trans : IsTrans (Text × α) fun m n => m.1 ≤ n.1 := ⟨fun _ _ _ => le_trans⟩
  exact List.pairwise_insertionSort _ ms

theorem sortByKey_eq {ms ns : List (Text × α)} (same : ∀ m, m ∈ ms ↔ m ∈ ns)
    (distinct : (ms.map Prod.fst).Nodup) (distinct' : (ns.map Prod.fst).Nodup) :
    sortByKey ms = sortByKey ns := by
  have perm : ms.Perm ns :=
    (List.perm_ext_iff_of_nodup (distinct.of_map _) (distinct'.of_map _)).mpr same
  have sorted := ((perm_sortByKey ms).trans perm).trans (perm_sortByKey ns).symm
  refine List.Perm.eq_of_pairwise ?_ (sortByKey_pairwise ms) (sortByKey_pairwise ns) sorted
  intro m n memM memN below above
  have memM' : m ∈ ns := (same m).mp ((perm_sortByKey ms).mem_iff.mp memM)
  have memN' : n ∈ ns := (perm_sortByKey ns).mem_iff.mp memN
  exact List.inj_on_of_nodup_map distinct' memM' memN' (le_antisymm below above)

def written (v : PyValue) : Text := (dumps nanFirst v).toOption.getD []

def writtenMember (m : Text × PyValue) : Text × Text :=
  (m.1, writeString false m.1 ++ text ":" ++ written m.2)

section Dumps
variable {nanLe : DictKey → DictKey → Bool}

theorem dumps_list {vs : List PyValue} (h : ∀ v ∈ vs, dumps nanLe v = .ok (written v)) :
    dumps nanLe (.list vs) = .ok (text "[" ++ joinComma (vs.map written) ++ text "]") := by
  have elements : dumpsElements nanLe vs = .ok (vs.map written) := by
    induction vs with
    | nil => rfl
    | cons v vs ih =>
      have later := ih fun w mem => h w (List.mem_cons_of_mem v mem)
      rw [dumpsElements, h v List.mem_cons_self, later]
      rfl
  rw [dumps, elements]
  rfl

theorem mapM_strMembers (ts : List (Text × Text)) :
    (strMembers (ts.map fun m => (m.1, (Except.ok m.2 : Except CanonicalError Text)))).mapM
      Prod.snd = .ok (ts.map Prod.snd) := by
  induction ts with
  | nil => rfl
  | cons t ts ih =>
    simp only [strMembers, List.map_cons, List.mapM_cons] at ih ⊢
    rw [ih]
    rfl

theorem dumps_dict {ms : List (Text × PyValue)}
    (h : ∀ m ∈ ms, dumps nanLe m.2 = .ok (written m.2)) :
    dumps nanLe (.dict (strMembers ms)) = .ok (text "\x7b" ++
      joinComma ((sortByKey (ms.map writtenMember)).map Prod.snd) ++ text "\x7d") := by
  have members : dumpsMembers nanLe (strMembers ms) =
      strMembers ((ms.map writtenMember).map fun m => (m.1, .ok m.2)) := by
    induction ms with
    | nil => rfl
    | cons m ms ih =>
      have later := ih fun n mem => h n (List.mem_cons_of_mem m mem)
      simp only [strMembers, List.map_cons] at later ⊢
      rw [dumpsMembers, h m List.mem_cons_self, later]
      rfl
  have sorted : sortMembers nanLe (dumpsMembers nanLe (strMembers ms)) = .ok (strMembers
      ((sortByKey (ms.map writtenMember)).map fun m => (m.1, .ok m.2))) := by
    have moved := map_sortByKey
      (fun m : Text × Text => (m.1, (Except.ok m.2 : Except CanonicalError Text))) (fun _ => rfl)
      (ms.map writtenMember)
    rw [members, sortMembers_strMembers, moved]
  rw [dumps, sorted]
  simp only [bind, Except.bind, mapM_strMembers]
  rfl

end Dumps

/- String keys are sorted the same in every order of NaNs. -/
theorem dumps_plain (nanLe : DictKey → DictKey → Bool) {v : PyValue} (plain : Plain v) :
    dumps nanLe v = .ok (written v) := by
  induction plain generalizing nanLe with
  | none => rfl
  | bool b => rfl
  | int n => rfl
  | str s => rfl
  | @list vs elements ih =>
    rw [dumps_list fun v mem => ih v mem nanLe, written, dumps_list fun v mem => ih v mem nanFirst]
    rfl
  | dict strings distinct members ih =>
    obtain ⟨ns, rfl⟩ := exists_strMembers strings
    have texts : ∀ nanLe, ∀ m ∈ ns, dumps nanLe m.2 = .ok (written m.2) := fun nanLe m mem =>
      ih (.str m.1, m.2) (mem_strMembers.mpr ⟨m.1, rfl, mem⟩) nanLe
    rw [dumps_dict (texts nanLe), written, dumps_dict (texts nanFirst)]
    rfl

theorem banFloats_plain {v : PyValue} (plain : Plain v) : banFloats v = .ok () := by
  induction plain with
  | none => rfl
  | bool b => rfl
  | int n => rfl
  | str s => rfl
  | @list vs elements ih =>
    rw [banFloats]
    clear elements
    induction vs with
    | nil => rfl
    | cons v vs ih' =>
      rw [banFloatsElements, ih v List.mem_cons_self]
      exact ih' fun w mem => ih w (List.mem_cons_of_mem v mem)
  | @dict ms strings distinct members ih =>
    rw [banFloats]
    clear strings distinct members
    induction ms with
    | nil => rfl
    | cons m ms ih' =>
      rw [banFloatsMembers, ih m List.mem_cons_self]
      exact ih' fun n mem => ih n (List.mem_cons_of_mem m mem)

theorem canonicalDumps_plain {v : PyValue} (plain : Plain v) :
    canonicalDumps v = .ok (written v ++ text "\n") := by
  rw [canonicalDumps, canonicalDumpsBy, banFloats_plain plain, dumps_plain nanFirst plain]
  rfl

theorem nodup_written {ms : List (Text × PyValue)} (distinct : (ms.map Prod.fst).Nodup) :
    ((ms.map writtenMember).map Prod.fst).Nodup := by
  rw [List.map_map]
  exact distinct

theorem mem_written {ms ns : List (Text × PyValue)}
    (keys : ∀ k, k ∈ ms.map Prod.fst → k ∈ ns.map Prod.fst)
    (pairs : ∀ k v w, (k, v) ∈ ms → (k, w) ∈ ns → written v = written w) {m : Text × Text}
    (mem : m ∈ ms.map writtenMember) : m ∈ ns.map writtenMember := by
  obtain ⟨⟨k, v⟩, member, rfl⟩ := List.mem_map.mp mem
  obtain ⟨⟨l, w⟩, member', key⟩ := List.mem_map.mp (keys k (List.mem_map_of_mem member))
  obtain rfl : l = k := key
  rw [writtenMember, pairs l v w member member']
  exact List.mem_map_of_mem member'

/- The order in which a dict holds its members leaves no trace in the text. -/
theorem written_same {v w : PyValue} (same : SameUpToOrder v w) (plain : Plain v)
    (plain' : Plain w) : written v = written w := by
  induction same with
  | none => rfl
  | bool b => rfl
  | int n => rfl
  | str s => rfl
  | @list vs ws length elements ih =>
    cases plain with
    | list plains =>
      cases plain' with
      | list plains' =>
        have texts : vs.map written = ws.map written := by
          apply List.ext_getElem (by simpa using length)
          intro i hv hw
          rw [List.length_map] at hv hw
          simp only [List.getElem_map]
          exact ih i hv hw (plains _ (List.getElem_mem hv)) (plains' _ (List.getElem_mem hw))
        have left := dumps_list fun v mem => dumps_plain nanFirst (plains v mem)
        have right := dumps_list fun v mem => dumps_plain nanFirst (plains' v mem)
        rw [written, written, left, right, texts]
  | @dict ms ns keys values ih =>
    cases plain with
    | dict strings distinct plains =>
      cases plain' with
      | dict strings' distinct' plains' =>
        obtain ⟨ms, rfl⟩ := exists_strMembers strings
        obtain ⟨ns, rfl⟩ := exists_strMembers strings'
        have pairs : ∀ k v w, (k, v) ∈ ms → (k, w) ∈ ns → written v = written w := by
          intro k v w memV memW
          have inV := mem_strMembers.mpr ⟨k, rfl, memV⟩
          have inW := mem_strMembers.mpr ⟨k, rfl, memW⟩
          exact ih _ v w inV inW (plain_member plains memV) (plain_member plains' memW)
        have texts : sortByKey (ms.map writtenMember) = sortByKey (ns.map writtenMember) := by
          apply sortByKey_eq _ (nodup_written (nodup_strMembers distinct))
            (nodup_written (nodup_strMembers distinct'))
          have keys' : ∀ k, k ∈ ms.map Prod.fst ↔ k ∈ ns.map Prod.fst := by
            intro k
            rw [← mem_keys_strMembers, keys, mem_keys_strMembers]
          intro m
          constructor
          · exact mem_written (fun k => (keys' k).mp) pairs
          · exact mem_written (fun k => (keys' k).mpr) fun k w v memW memV =>
              (pairs k v w memV memW).symm
        have left := dumps_dict fun m mem => dumps_plain nanFirst (plain_member plains mem)
        have right := dumps_dict fun m mem => dumps_plain nanFirst (plain_member plains' mem)
        rw [written, written, left, right, texts]

section Reading
-- what the reader makes of the text of a float
variable (readFloat : Text → PyFloat)

mutual
/-- The value that `json.loads` gives for a document. -/
def pyValue : Json → PyValue
  | .null => .none
  | .bool b => .bool b
  | .int n => .int n
  | .float literal => .float (readFloat literal)
  | .str s => .str s
  | .arr js => .list (pyElements js)
  | .obj ms => .dict (pyMembers ms)

def pyElements : List Json → List PyValue
  | [] => []
  | j :: js => pyValue j :: pyElements js

def pyMembers : List (Text × Json) → List (DictKey × PyValue)
  | [] => []
  | (k, j) :: ms => (.str k, pyValue j) :: pyMembers ms
end

theorem pyElements_map (js : List Json) : pyElements readFloat js = js.map (pyValue readFloat) := by
  induction js with
  | nil => rfl
  | cons j js ih => rw [pyElements, ih, List.map_cons]

theorem pyMembers_map (ms : List (Text × Json)) :
    pyMembers readFloat ms = strMembers (ms.map fun m => (m.1, pyValue readFloat m.2)) := by
  induction ms with
  | nil => rfl
  | cons m ms ih =>
    rw [pyMembers, ih]
    rfl

/-- Its text is read as the value, whatever order a dict holds its members in. -/
def ReadBack (v : PyValue) (j : Json) : Prop :=
  Reads (written v) j ∧ SameUpToOrder (pyValue readFloat j) v

theorem readBack_list {vs : List PyValue} {read : PyValue → Json} (plains : ∀ v ∈ vs, Plain v)
    (reads : ∀ v ∈ vs, ReadBack readFloat v (read v)) :
    ReadBack readFloat (.list vs) (.arr (vs.map read)) := by
  constructor
  · have texts : List.Forall₂ Reads (vs.map written) (vs.map read) := by
      rw [List.forall₂_map_left_iff, List.forall₂_map_right_iff, List.forall₂_same]
      exact fun v mem => (reads v mem).1
    have dumped := dumps_list fun v mem => dumps_plain nanFirst (plains v mem)
    rw [written, dumped]
    exact reads_array texts
  · rw [pyValue, pyElements_map, List.map_map]
    refine .list (by simp) ?_
    intro i _ bound
    rw [List.getElem_map]
    exact (reads _ (List.getElem_mem bound)).2

theorem readBack_dict {ms : List (Text × PyValue)} {read : Text × PyValue → Json}
    (distinct : (ms.map Prod.fst).Nodup) (plains : ∀ m ∈ ms, Plain m.2)
    (reads : ∀ m ∈ ms, ReadBack readFloat m.2 (read m)) :
    ReadBack readFloat (.dict (strMembers ms))
      (.obj ((sortByKey ms).map fun m => (m.1, read m))) := by
  have perm := perm_sortByKey ms
  constructor
  · have texts : List.Forall₂ ReadsMember (((sortByKey ms).map writtenMember).map Prod.snd)
        ((sortByKey ms).map fun m => (m.1, read m)) := by
      rw [List.map_map, List.forall₂_map_left_iff, List.forall₂_map_right_iff, List.forall₂_same]
      intro m mem
      refine ⟨written m.2, ?_, (reads m (perm.mem_iff.mp mem)).1⟩
      simp [writtenMember, text]
    have keys : (((sortByKey ms).map fun m => (m.1, read m)).map Prod.fst).Nodup := by
      rw [List.map_map]
      exact (perm.map Prod.fst).nodup_iff.mpr distinct
    have dumped := dumps_dict fun m mem => dumps_plain nanFirst (plains m mem)
    rw [written, dumped, ← map_sortByKey writtenMember fun _ => rfl]
    exact reads_object texts keys
  · rw [pyValue, pyMembers_map, List.map_map]
    refine .dict ?_ ?_
    · have keys : (strMembers ((sortByKey ms).map
          ((fun m => (m.1, pyValue readFloat m.2)) ∘ fun m => (m.1, read m)))).map Prod.fst =
          (strMembers (sortByKey ms)).map Prod.fst := by
        simp [strMembers]
      intro k
      rw [keys, keys_strMembers, keys_strMembers]
      exact ((perm.map Prod.fst).map DictKey.str).mem_iff
    · intro k u w memU memW
      obtain ⟨s, rfl, inU⟩ := mem_strMembers.mp memU
      obtain ⟨m, mem, same⟩ := List.mem_map.mp inU
      obtain ⟨rfl, rfl⟩ := Prod.mk.inj same
      obtain ⟨_, key, inW⟩ := mem_strMembers.mp memW
      cases key
      have member := perm.mem_iff.mp mem
      rw [← value_unique distinct member inW]
      exact (reads m member).2

theorem readBack_plain {v : PyValue} (plain : Plain v) : ∃ j, ReadBack readFloat v j := by
  induction plain with
  | none => exact ⟨.null, reads_null, .none⟩
  | bool b => exact ⟨.bool b, reads_bool b, .bool b⟩
  | int n => exact ⟨.int n, reads_int n, .int n⟩
  | str s => exact ⟨.str s, reads_string s, .str s⟩
  | list elements ih =>
    choose! read reads using ih
    exact ⟨_, readBack_list readFloat elements reads⟩
  | dict strings distinct members ih =>
    obtain ⟨ns, rfl⟩ := exists_strMembers strings
    have each : ∀ m ∈ ns, ∃ j, ReadBack readFloat m.2 j := fun m mem =>
      ih (.str m.1, m.2) (mem_strMembers.mpr ⟨m.1, rfl, mem⟩)
    choose! read reads using each
    exact ⟨_, readBack_dict readFloat (nodup_strMembers distinct)
      (fun m mem => plain_member members mem) reads⟩

theorem same_of_written {v w : PyValue} (plain : Plain v) (plain' : Plain w)
    (same : written v = written w) : SameUpToOrder v w := by
  -- there is no float to be read
  obtain ⟨j, reads, read⟩ := readBack_plain (fun _ => .nan) plain
  obtain ⟨k, reads', read'⟩ := readBack_plain (fun _ => .nan) plain'
  have document := parse_reads reads
  rw [same, parse_reads reads'] at document
  obtain rfl : k = j := Except.ok.inj document
  exact read.euclidean read'

/-- Canonical JSON is a faithful encoding. -/
theorem canonicalDumps_faithful (v w : PlainValue) :
    (∃ t j, canonicalDumps v.value = .ok t ∧ parse t = .ok j ∧
      SameUpToOrder (pyValue readFloat j) v.value) ∧
    (canonicalDumps v.value = canonicalDumps w.value ↔ SameUpToOrder v.value w.value) := by
  have dumped := canonicalDumps_plain v.plain
  have dumped' := canonicalDumps_plain w.plain
  obtain ⟨j, reads, read⟩ := readBack_plain readFloat v.plain
  refine ⟨⟨_, j, dumped, parse_reads reads, read⟩, ?_⟩
  constructor
  · intro same
    rw [dumped, dumped'] at same
    exact same_of_written v.plain w.plain
      (List.append_cancel_right (Except.ok.inj same))
  · intro same
    rw [dumped, dumped', written_same same v.plain w.plain]

end Reading

end CanonicalJson
