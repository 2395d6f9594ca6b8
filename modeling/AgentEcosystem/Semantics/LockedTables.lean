import Mathlib.Data.List.Nodup

/-!
Tables with a primary key and a trigger that refuses to update locked rows. A
statement that violates a rule changes nothing, so a row once locked stays in the
table, and is the only one with its key, until it is deleted.
-/
namespace LockedTables
variable {κ ρ : Type*}

/-- The rules that a table declares. -/
structure Rules (κ ρ : Type*) where
  /-- The primary key. -/
  key : ρ → κ
  /-- The columns take the values of the row. -/
  fits : ρ → Bool
  locked : ρ → Bool

inductive Statement (ρ : Type*) where
  | insert (row : ρ)
  | update (condition : ρ → Bool) (set : ρ → ρ)
  | delete (condition : ρ → Bool)

def Rules.Keyed (rules : Rules κ ρ) (rows : List ρ) : Prop := (rows.map rules.key).Nodup

instance [DecidableEq κ] (rules : Rules κ ρ) (rows : List ρ) : Decidable (rules.Keyed rows) :=
  inferInstanceAs (Decidable (List.Nodup _))

/-- The rows behind an update, trigger and constraints aside. -/
def updated (condition : ρ → Bool) (set : ρ → ρ) (rows : List ρ) : List ρ :=
  rows.map fun row => if condition row then set row else row

def execute [DecidableEq κ] (rules : Rules κ ρ) (rows : List ρ) : Statement ρ → Option (List ρ)
  | .insert row =>
    if rules.fits row ∧ rules.Keyed (rows ++ [row]) then some (rows ++ [row]) else none
  | .update condition set =>
    let hit := rows.filter condition
    let after := updated condition set rows
    if hit.any rules.locked then none
    else if after.all rules.fits ∧ rules.Keyed after then some after
    else none
  | .delete condition => some (rows.filter fun row => !condition row)

def settle [DecidableEq κ] (rules : Rules κ ρ) (rows : List ρ) (statement : Statement ρ) : List ρ :=
  (execute rules rows statement).getD rows

def Spares (row : ρ) : Statement ρ → Prop
  | .delete condition => condition row = false
  | _ => True

section Rows
variable {rules : Rules κ ρ} {rows : List ρ} {row : ρ}

theorem mem_updated {condition : ρ → Bool} (set : ρ → ρ) (mem : row ∈ rows)
    (missed : condition row = false) : row ∈ updated condition set rows := by
  apply List.mem_map.mpr
  exact ⟨row, mem, by rw [missed]; rfl⟩

theorem missed_of_unlocked {condition : ρ → Bool} (mem : row ∈ rows) (locked : rules.locked row)
    (none : ¬ (rows.filter condition).any rules.locked) : condition row = false := by
  rw [Bool.eq_false_iff]
  intro hit
  exact none (List.any_eq_true.mpr ⟨row, List.mem_filter.mpr ⟨mem, hit⟩, locked⟩)

theorem keyed_filter (p : ρ → Bool) (keyed : rules.Keyed rows) : rules.Keyed (rows.filter p) :=
  keyed.sublist (List.filter_sublist.map rules.key)

variable [DecidableEq κ]

theorem keyed_settle (keyed : rules.Keyed rows) (statement : Statement ρ) :
    rules.Keyed (settle rules rows statement) := by
  cases statement with
  | insert row =>
    simp only [settle, execute]
    split
    · next accepted => exact accepted.2
    · exact keyed
  | update condition set =>
    simp only [settle, execute]
    split
    · exact keyed
    · split
      · next accepted => exact accepted.2
      · exact keyed
  | delete condition => exact keyed_filter _ keyed

theorem mem_settle (mem : row ∈ rows) (locked : rules.locked row) {statement : Statement ρ}
    (spares : Spares row statement) : row ∈ settle rules rows statement := by
  cases statement with
  | insert new =>
    simp only [settle, execute]
    split
    · exact List.mem_append_left _ mem
    · exact mem
  | update condition set =>
    simp only [settle, execute]
    split
    · exact mem
    · next unlocked =>
      split
      · exact mem_updated set mem (missed_of_unlocked mem locked unlocked)
      · exact mem
  | delete condition =>
    apply List.mem_filter.mpr
    exact ⟨mem, by rw [spares]; rfl⟩

theorem filter_key (keyed : rules.Keyed rows) (mem : row ∈ rows) :
    (rows.filter fun other => rules.key other = rules.key row) = [row] := by
  obtain ⟨front, back, rfl⟩ := List.append_of_mem mem
  rw [Rules.Keyed, List.map_append, List.map_cons, List.nodup_append, List.nodup_cons] at keyed
  obtain ⟨_, ⟨behind, _⟩, apart⟩ := keyed
  have before : (front.filter fun other => rules.key other = rules.key row) = [] := by
    rw [List.filter_eq_nil_iff]
    intro other there same
    exact apart _ (List.mem_map_of_mem there) _ List.mem_cons_self (of_decide_eq_true same)
  have after : (back.filter fun other => rules.key other = rules.key row) = [] := by
    rw [List.filter_eq_nil_iff]
    intro other there same
    exact behind (List.mem_map.mpr ⟨other, there, of_decide_eq_true same⟩)
  rw [List.filter_append, before, List.nil_append, List.filter_cons, if_pos (decide_eq_true rfl),
    after]

end Rows

end LockedTables
