import Mathlib.Data.List.Infix

/-!
Scanners that may get stuck, and the codes they make. A mark that no state can
read occurs in nothing that is read; so words that begin with the mark and are
read on behind their first letter are told apart from the right, whatever stands
before them.
-/
namespace SuffixCode
variable {σ α : Type*} (step : σ → α → Option σ)

def scan : σ → List α → Option σ
  | s, [] => some s
  | s, a :: w => (step s a).bind fun t => scan t w

theorem scan_append (s : σ) (u v : List α) :
    scan step s (u ++ v) = (scan step s u).bind fun t => scan step t v := by
  induction u generalizing s with
  | nil => rfl
  | cons a u ih =>
    simp only [List.cons_append, scan, Option.bind_assoc]
    congr 1
    funext t
    exact ih t

theorem scan_trans {s t r : σ} {u v : List α} (first : scan step s u = some t)
    (second : scan step t v = some r) : scan step s (u ++ v) = some r := by
  rw [scan_append, first]
  exact second

theorem scan_stays {s : σ} {w : List α} (stays : ∀ a ∈ w, step s a = some s) :
    scan step s w = some s := by
  induction w with
  | nil => rfl
  | cons a w ih =>
    rw [scan, stays a List.mem_cons_self]
    exact ih fun b mem => stays b (List.mem_cons_of_mem a mem)

def Unreadable (mark : List α) : Prop := ∀ s, scan step s mark = none

theorem scan_unreadable {mark : List α} (unreadable : Unreadable step mark) (s : σ)
    (u v : List α) : scan step s (u ++ mark ++ v) = none := by
  rw [scan_append, scan_append]
  cases scan step s u with
  | none => rfl
  | some t =>
    rw [Option.bind_some, unreadable t]
    rfl

/-- The word begins with the mark and is read behind its first letter. -/
structure CodeWord (start : σ) (mark w : List α) : Prop where
  begins : mark <+: w
  readable : ∃ t, scan step start w.tail = some t

variable {step} {start : σ} {mark : List α}

theorem eq_of_suffix (unreadable : Unreadable step mark) {v w : List α}
    (hv : CodeWord step start mark v) (hw : CodeWord step start mark w) (suffix : v <:+ w) :
    v = w := by
  obtain ⟨u, rfl⟩ := suffix
  cases u with
  | nil => rfl
  | cons a u =>
    obtain ⟨rest, rfl⟩ := hv.begins
    obtain ⟨t, read⟩ := hw.readable
    rw [List.cons_append, List.tail_cons, ← List.append_assoc,
      scan_unreadable step unreadable] at read
    cases read

/-- What stands before a code word is told from the word. -/
theorem append_code_inj (unreadable : Unreadable step mark) {x y v w : List α}
    (hv : CodeWord step start mark v) (hw : CodeWord step start mark w)
    (same : x ++ v = y ++ w) : x = y ∧ v = w := by
  have left : v <:+ x ++ v := List.suffix_append x v
  have right : w <:+ x ++ v := same ▸ List.suffix_append y w
  have words : v = w := by
    rcases List.suffix_or_suffix_of_suffix left right with shorter | longer
    · exact eq_of_suffix unreadable hv hw shorter
    · exact (eq_of_suffix unreadable hw hv longer).symm
  rw [words] at same
  exact ⟨List.append_cancel_right same, words⟩

end SuffixCode
