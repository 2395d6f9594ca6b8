import Mathlib.Data.List.Nodup

/-!
Dictionaries that keep their keys in the order in which they came. A key that is
there already stays in its place when its value changes.
-/
namespace OrderedDict

@[ext]
structure Dict (κ ν : Type) where
  items : List (κ × ν)
  nodup : (items.map Prod.fst).Nodup

namespace Dict
variable {κ ν : Type}

def empty : Dict κ ν := ⟨[], List.nodup_nil⟩

def keys (d : Dict κ ν) : List κ := d.items.map Prod.fst

theorem nodup_snoc {d : Dict κ ν} {k : κ} (new : k ∉ d.keys) (v : ν) :
    ((d.items ++ [(k, v)]).map Prod.fst).Nodup := by
  rw [List.map_append]
  apply List.nodup_append.mpr
  refine ⟨d.nodup, List.nodup_singleton k, ?_⟩
  rintro a old b last rfl
  rw [List.mem_singleton.mp last] at old
  exact new old

variable [DecidableEq κ]

def get (d : Dict κ ν) (k : κ) : Option ν := (d.items.find? fun p => p.1 = k).map Prod.snd

def modifyItem (k : κ) (f : ν → ν) (p : κ × ν) : κ × ν := (p.1, if p.1 = k then f p.2 else p.2)

theorem modifyItem_keys (k : κ) (f : ν → ν) (items : List (κ × ν)) :
    (items.map (modifyItem k f)).map Prod.fst = items.map Prod.fst := by
  rw [List.map_map]
  rfl

def modify (d : Dict κ ν) (k : κ) (f : ν → ν) : Dict κ ν :=
  ⟨d.items.map (modifyItem k f), by
    rw [modifyItem_keys]
    exact d.nodup⟩

def insert (d : Dict κ ν) (k : κ) (v : ν) : Dict κ ν :=
  if new : k ∉ d.keys then ⟨d.items ++ [(k, v)], nodup_snoc new v⟩ else d.modify k fun _ => v

section Find
variable {d : Dict κ ν} {k j : κ} {v : ν} {f : ν → ν}

theorem get_eq_none_iff : d.get k = none ↔ k ∉ d.keys := by
  rw [get, Option.map_eq_none_iff, List.find?_eq_none]
  constructor
  · intro absent mem
    obtain ⟨p, inside, rfl⟩ := List.mem_map.mp mem
    exact absent p inside (decide_eq_true rfl)
  · intro absent p inside found
    exact absent (List.mem_map.mpr ⟨p, inside, of_decide_eq_true found⟩)

theorem mem_items_of_get (h : d.get k = some v) : (k, v) ∈ d.items := by
  obtain ⟨p, found, rfl⟩ := Option.map_eq_some_iff.mp h
  have matched := List.find?_some found
  rw [← of_decide_eq_true matched]
  exact List.mem_of_find?_eq_some found

theorem get_of_mem_items (h : (k, v) ∈ d.items) : d.get k = some v := by
  rcases found : d.get k with _ | w
  · exact absurd (List.mem_map.mpr ⟨(k, v), h, rfl⟩) (get_eq_none_iff.mp found)
  · have same := List.inj_on_of_nodup_map d.nodup h (mem_items_of_get found) rfl
    cases same
    rfl

theorem mem_keys_of_get (h : d.get k = some v) : k ∈ d.keys :=
  List.mem_map.mpr ⟨(k, v), mem_items_of_get h, rfl⟩

theorem keys_modify : (d.modify k f).keys = d.keys := modifyItem_keys k f d.items

theorem get_modify :
    (d.modify k f).get j = (d.get j).map fun v => if j = k then f v else v := by
  rcases found : d.get j with _ | v
  · rw [Option.map_none, get_eq_none_iff, keys_modify]
    exact get_eq_none_iff.mp found
  · apply get_of_mem_items
    exact List.mem_map.mpr ⟨(j, v), mem_items_of_get found, rfl⟩

theorem modify_congr {g : ν → ν} (same : ∀ v, d.get k = some v → f v = g v) :
    d.modify k f = d.modify k g := by
  apply Dict.ext
  apply List.map_congr_left
  rintro ⟨key, v⟩ inside
  unfold modifyItem
  split
  · next here =>
    rw [same v (get_of_mem_items (here ▸ inside))]
  · rfl

theorem modify_eq {g : ν → ν} (found : d.get k = some v) (same : f v = g v) :
    d.modify k f = d.modify k g := by
  apply modify_congr
  intro w there
  rw [found] at there
  cases there
  exact same

theorem modify_id : d.modify k id = d := by
  apply Dict.ext
  change d.items.map (modifyItem k id) = d.items
  have unchanged : modifyItem k (id : ν → ν) = id := by
    funext p
    simp [modifyItem]
  rw [unchanged, List.map_id]

theorem modify_eq_self (found : d.get k = some v) (same : f v = v) : d.modify k f = d :=
  (modify_eq (g := id) found same).trans modify_id

theorem modify_absent (absent : d.get k = none) : d.modify k f = d := by
  rw [modify_congr (g := id), modify_id]
  intro v there
  rw [absent] at there
  cases there

theorem modify_modify {g : ν → ν} : (d.modify k f).modify k g = d.modify k (g ∘ f) := by
  apply Dict.ext
  change (d.items.map (modifyItem k f)).map (modifyItem k g) = d.items.map (modifyItem k (g ∘ f))
  rw [List.map_map]
  congr 1
  funext p
  by_cases here : p.1 = k
  · simp [modifyItem, here]
  · simp [modifyItem, here]

theorem get_insert : (d.insert k v).get j = if j = k then some v else d.get j := by
  unfold insert
  split
  · next new =>
    by_cases same : j = k
    · rw [if_pos same]
      exact get_of_mem_items (List.mem_append_right _ (List.mem_singleton.mpr (by rw [same])))
    · rw [if_neg same]
      rcases found : d.get j with _ | w
      · rw [get_eq_none_iff]
        intro mem
        obtain ⟨p, inside, rfl⟩ := List.mem_map.mp mem
        rcases List.mem_append.mp inside with old | last
        · exact get_eq_none_iff.mp found (List.mem_map.mpr ⟨p, old, rfl⟩)
        · exact same (congrArg Prod.fst (List.mem_singleton.mp last))
      · exact get_of_mem_items (List.mem_append_left _ (mem_items_of_get found))
  · next old =>
    rw [get_modify]
    by_cases same : j = k
    · have there : d.get j ≠ none := fun absent => old (same ▸ get_eq_none_iff.mp absent)
      obtain ⟨w, found⟩ := Option.ne_none_iff_exists'.mp there
      rw [found, if_pos same, Option.map_some, if_pos same]
    · simp only [if_neg same, Option.map_id']

/- A change at each of these keys that makes no difference the second time. -/
theorem get_foldl_modify (again : ∀ v, f (f v) = f v) (ks : List κ) (d : Dict κ ν) :
    (ks.foldl (fun d k => d.modify k f) d).get j =
      (d.get j).map fun v => if j ∈ ks then f v else v := by
  induction ks generalizing d with
  | nil => simp only [List.foldl_nil, List.not_mem_nil, if_false, Option.map_id']
  | cons k ks ih =>
    rw [List.foldl_cons, ih, get_modify, Option.map_map]
    congr 1
    funext v
    by_cases head : j = k
    · simp [head, again]
    · simp [head]

end Find

end Dict

end OrderedDict
