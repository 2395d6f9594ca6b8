import Mathlib.Data.List.Perm.Basic

/-!
Finite trees with any number of children at a node, and the walk that takes the next
tree from the front of a queue and puts its children at the end.
-/
namespace RoseTrees
variable {α : Type}

inductive RoseTree (α : Type) where
  | node (label : α) (children : List (RoseTree α))

namespace RoseTree

def label : RoseTree α → α
  | node a _ => a

def children : RoseTree α → List (RoseTree α)
  | node _ ts => ts

end RoseTree

mutual

def subtrees : RoseTree α → List (RoseTree α)
  | .node a ts => .node a ts :: forest ts

def forest : List (RoseTree α) → List (RoseTree α)
  | [] => []
  | t :: ts => subtrees t ++ forest ts

end

theorem subtrees_eq (t : RoseTree α) : subtrees t = t :: forest t.children := by
  cases t with
  | node a ts => rw [subtrees, RoseTree.children]

theorem forest_append (ts us : List (RoseTree α)) :
    forest (ts ++ us) = forest ts ++ forest us := by
  induction ts with
  | nil => rfl
  | cons t ts ih => rw [List.cons_append, forest, forest, ih, List.append_assoc]

theorem mem_forest {s : RoseTree α} {ts : List (RoseTree α)} :
    s ∈ forest ts ↔ ∃ t ∈ ts, s ∈ subtrees t := by
  induction ts with
  | nil => simp [forest]
  | cons t ts ih => simp [forest, ih]

inductive Inside : RoseTree α → RoseTree α → Prop where
  | root (t : RoseTree α) : Inside t t
  | deeper {s t : RoseTree α} {a : α} {ts : List (RoseTree α)} :
      t ∈ ts → Inside s t → Inside s (.node a ts)

theorem mem_subtrees_of_inside {s t : RoseTree α} (inside : Inside s t) : s ∈ subtrees t := by
  induction inside with
  | root =>
    rw [subtrees_eq]
    exact List.mem_cons_self
  | deeper mem inside ih =>
    rw [subtrees]
    exact List.mem_cons_of_mem _ (mem_forest.mpr ⟨_, mem, ih⟩)

mutual

theorem inside_of_mem_subtrees {s : RoseTree α} : ∀ {t : RoseTree α},
    s ∈ subtrees t → Inside s t
  | .node a ts => by
    intro mem
    rw [subtrees] at mem
    rcases List.mem_cons.mp mem with rfl | mem
    · exact .root _
    · obtain ⟨t, child, inside⟩ := inside_of_mem_forest mem
      exact .deeper child inside

theorem inside_of_mem_forest {s : RoseTree α} : ∀ {ts : List (RoseTree α)}, s ∈ forest ts →
    ∃ t ∈ ts, Inside s t
  | [] => by
    intro mem
    rw [forest] at mem
    cases mem
  | t :: ts => by
    intro mem
    rw [forest] at mem
    rcases List.mem_append.mp mem with first | later
    · exact ⟨t, List.mem_cons_self, inside_of_mem_subtrees first⟩
    · obtain ⟨u, child, inside⟩ := inside_of_mem_forest later
      exact ⟨u, List.mem_cons_of_mem _ child, inside⟩

end

theorem mem_subtrees {s t : RoseTree α} : s ∈ subtrees t ↔ Inside s t :=
  ⟨inside_of_mem_subtrees, mem_subtrees_of_inside⟩

/-- The trees of a queue as they are taken from it, each followed by its children at
    the end of the queue. -/
def walkFrom : ℕ → List (RoseTree α) → List (RoseTree α)
  | 0, _ => []
  | _ + 1, [] => []
  | fuel + 1, t :: queue => t :: walkFrom fuel (queue ++ t.children)

def walk (t : RoseTree α) : List (RoseTree α) := walkFrom (subtrees t).length [t]

/- Each turn takes one of the trees that are left, whatever the order. -/
theorem walkFrom_perm : ∀ {fuel : ℕ} {queue : List (RoseTree α)},
    (forest queue).length ≤ fuel → (walkFrom fuel queue).Perm (forest queue)
  | 0, [], _ => .nil
  | 0, t :: queue, enough => by
    rw [forest, subtrees_eq] at enough
    cases enough
  | fuel + 1, [], _ => .nil
  | fuel + 1, t :: queue, enough => by
    have rest : (forest (queue ++ t.children)).length ≤ fuel := by
      rw [forest, subtrees_eq] at enough
      rw [forest_append, List.length_append]
      simp only [List.cons_append, List.length_cons, List.length_append] at enough
      omega
    rw [walkFrom, forest, subtrees_eq, List.cons_append]
    have later := walkFrom_perm rest
    rw [forest_append] at later
    exact (later.trans List.perm_append_comm).cons t

theorem walk_perm (t : RoseTree α) : (walk t).Perm (subtrees t) := by
  have single : forest [t] = subtrees t := by
    rw [forest, forest, List.append_nil]
  have enough : (forest [t]).length ≤ (subtrees t).length :=
    Nat.le_of_eq (congrArg List.length single)
  exact (walkFrom_perm enough).trans (.of_eq single)

theorem mem_walk {s t : RoseTree α} : s ∈ walk t ↔ Inside s t :=
  (walk_perm t).mem_iff.trans mem_subtrees

end RoseTrees
