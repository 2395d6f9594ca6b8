import AgentEcosystem.Json.JsonText
import AgentEcosystem.Semantics.Raising

/-!
The limits of a JSON reader only ever stop it: a reader with wider limits reads the
same from every text that the narrower ones were enough for. The keys of an object it
reads are distinct.
-/
namespace JsonText
open Raising UnicodeText

/-- The first reader runs into its limits, or reads what the second reads. -/
def StopsOrAgrees {α : Type} (narrow wide : Except JsonError α) : Prop :=
  narrow = .error .digits ∨ narrow = .error .recursion ∨ wide = narrow

theorem stopsOrAgrees_refl {α : Type} (r : Except JsonError α) : StopsOrAgrees r r :=
  .inr (.inr rfl)

theorem stopsOrAgrees_bind {α β : Type} {narrow wide : Except JsonError α}
    {f g : α → Except JsonError β} (first : StopsOrAgrees narrow wide)
    (later : ∀ a, StopsOrAgrees (f a) (g a)) : StopsOrAgrees (narrow >>= f) (wide >>= g) := by
  rcases first with rfl | rfl | rfl
  · exact .inl rfl
  · exact .inr (.inl rfl)
  · cases wide with
    | error e => exact stopsOrAgrees_refl _
    | ok a => exact later a

section Limits
variable {maxDigits maxDigits' : ℕ} (digits : maxDigits ≤ maxDigits')
include digits

/- Only the length of an integer is compared with the limit. -/
theorem readNumber_wider (cs : Text) :
    StopsOrAgrees (readNumber maxDigits cs) (readNumber maxDigits' cs) := by
  unfold readNumber
  dsimp only
  generalize List.span isAsciiDigit _ = number
  obtain ⟨run, rest⟩ := number
  cases run with
  | nil => exact stopsOrAgrees_refl _
  | cons first more =>
    dsimp only
    generalize (if first = ofChar '0' then ([first], more ++ rest) else (first :: more, rest)) =
      whole
    split
    · by_cases fits : whole.1.length ≤ maxDigits
      · rw [if_pos fits, if_pos (fits.trans digits)]
        exact stopsOrAgrees_refl _
      · rw [if_neg fits]
        exact .inl rfl
    · exact stopsOrAgrees_refl _

section Readers
variable {fuel depth depth' : ℕ}

omit digits in
theorem readMembers_wider
    (values : ∀ cs, StopsOrAgrees (readValue maxDigits fuel depth cs)
      (readValue maxDigits' fuel depth' cs))
    (objects : ∀ members cs, StopsOrAgrees (readMembers maxDigits fuel depth members cs)
      (readMembers maxDigits' fuel depth' members cs))
    (members : List (Text × Json)) (cs : Text) :
    StopsOrAgrees (readMembers maxDigits (fuel + 1) depth members cs)
      (readMembers maxDigits' (fuel + 1) depth' members cs) := by
  simp only [readMembers]
  split
  · exact stopsOrAgrees_refl _
  · apply stopsOrAgrees_bind (stopsOrAgrees_refl _)
    rintro ⟨key, rest⟩
    dsimp only
    split
    · exact stopsOrAgrees_refl _
    · apply stopsOrAgrees_bind (values _)
      rintro ⟨v, rest⟩
      dsimp only
      split
      · exact stopsOrAgrees_refl _
      · split
        · exact stopsOrAgrees_refl _
        · split
          · exact objects _ _
          · exact stopsOrAgrees_refl _

omit digits in
theorem readElements_wider
    (values : ∀ cs, StopsOrAgrees (readValue maxDigits fuel depth cs)
      (readValue maxDigits' fuel depth' cs))
    (arrays : ∀ elements cs, StopsOrAgrees (readElements maxDigits fuel depth elements cs)
      (readElements maxDigits' fuel depth' elements cs))
    (elements : List Json) (cs : Text) :
    StopsOrAgrees (readElements maxDigits (fuel + 1) depth elements cs)
      (readElements maxDigits' (fuel + 1) depth' elements cs) := by
  simp only [readElements]
  apply stopsOrAgrees_bind (values _)
  rintro ⟨v, rest⟩
  dsimp only
  split
  · exact stopsOrAgrees_refl _
  · split
    · exact stopsOrAgrees_refl _
    · split
      · exact arrays _ _
      · exact stopsOrAgrees_refl _

end Readers

/- One level of nesting takes one unit of the depth. -/
theorem readValue_wider {fuel : ℕ}
    (objects : ∀ {depth depth' : ℕ}, depth ≤ depth' → ∀ members cs,
      StopsOrAgrees (readMembers maxDigits fuel depth members cs)
        (readMembers maxDigits' fuel depth' members cs))
    (arrays : ∀ {depth depth' : ℕ}, depth ≤ depth' → ∀ elements cs,
      StopsOrAgrees (readElements maxDigits fuel depth elements cs)
        (readElements maxDigits' fuel depth' elements cs))
    {depth depth' : ℕ} (deeper : depth ≤ depth') (cs : Text) :
    StopsOrAgrees (readValue maxDigits (fuel + 1) depth cs)
      (readValue maxDigits' (fuel + 1) depth' cs) := by
  cases cs with
  | nil => exact stopsOrAgrees_refl _
  | cons c rest =>
    simp only [readValue]
    split
    · exact stopsOrAgrees_refl _
    · split
      · cases depth with
        | zero => exact .inr (.inl rfl)
        | succ depth =>
          obtain ⟨k, rfl⟩ := Nat.exists_eq_add_of_lt deeper
          dsimp only
          split
          · exact stopsOrAgrees_refl _
          · split
            · exact stopsOrAgrees_refl _
            · exact objects (by omega) [] _
      · split
        · cases depth with
          | zero => exact .inr (.inl rfl)
          | succ depth =>
            obtain ⟨k, rfl⟩ := Nat.exists_eq_add_of_lt deeper
            dsimp only
            split
            · exact stopsOrAgrees_refl _
            · split
              · exact stopsOrAgrees_refl _
              · exact arrays (by omega) [] _
        · split
          · exact stopsOrAgrees_refl _
          · exact readNumber_wider digits _

theorem readers_wider (fuel : ℕ) :
    (∀ {depth depth' : ℕ}, depth ≤ depth' → ∀ cs,
      StopsOrAgrees (readValue maxDigits fuel depth cs) (readValue maxDigits' fuel depth' cs)) ∧
    (∀ {depth depth' : ℕ}, depth ≤ depth' → ∀ members cs,
      StopsOrAgrees (readMembers maxDigits fuel depth members cs)
        (readMembers maxDigits' fuel depth' members cs)) ∧
    ∀ {depth depth' : ℕ}, depth ≤ depth' → ∀ elements cs,
      StopsOrAgrees (readElements maxDigits fuel depth elements cs)
        (readElements maxDigits' fuel depth' elements cs) := by
  induction fuel with
  | zero =>
    refine ⟨?_, ?_, ?_⟩
    · intro depth depth' _ cs
      exact stopsOrAgrees_refl _
    · intro depth depth' _ members cs
      exact stopsOrAgrees_refl _
    · intro depth depth' _ elements cs
      exact stopsOrAgrees_refl _
  | succ fuel ih =>
    obtain ⟨values, objects, arrays⟩ := ih
    refine ⟨?_, ?_, ?_⟩
    · exact readValue_wider digits objects arrays
    · intro depth depth' deeper
      exact readMembers_wider (values deeper) (objects deeper)
    · intro depth depth' deeper
      exact readElements_wider (values deeper) (arrays deeper)

theorem loadsWithin_wider {maxDepth maxDepth' : ℕ} (deeper : maxDepth ≤ maxDepth') (cs : Text) :
    StopsOrAgrees (loadsWithin maxDigits maxDepth cs) (loadsWithin maxDigits' maxDepth' cs) := by
  apply stopsOrAgrees_bind ((readers_wider digits _).1 deeper _)
  rintro ⟨v, rest⟩
  exact stopsOrAgrees_refl _

end Limits

/-- The value of a document to a reader whose limits are wide enough for it. -/
def Document (cs : Text) (j : Json) : Prop :=
  ∃ maxDigits maxDepth, loadsWithin maxDigits maxDepth cs = .ok j

/- Two readers are compared with one whose limits are at least as wide as those of both. -/
theorem wider_both {maxDigits maxDepth maxDigits' maxDepth' : ℕ} {cs : Text} {j : Json}
    (read : loadsWithin maxDigits maxDepth cs = .ok j) :
    loadsWithin (max maxDigits maxDigits') (max maxDepth maxDepth') cs = .ok j := by
  rcases loadsWithin_wider (le_max_left maxDigits maxDigits') (le_max_left maxDepth maxDepth') cs
    with stopped | stopped | agrees
  · rw [read] at stopped
    cases stopped
  · rw [read] at stopped
    cases stopped
  · rw [agrees, read]

theorem document_of_loads {maxDepth : ℕ} {cs : Text} {j : Json} (read : loads maxDepth cs = .ok j) :
    Document cs j := ⟨_, _, read⟩

theorem document_unique {cs : Text} {j k : Json} (first : Document cs j) (second : Document cs k) :
    j = k := by
  obtain ⟨maxDigits, maxDepth, read⟩ := first
  obtain ⟨maxDigits', maxDepth', read'⟩ := second
  have wide : loadsWithin (max maxDigits maxDigits') (max maxDepth maxDepth') cs = .ok j :=
    wider_both read
  have wide' : loadsWithin (max maxDigits' maxDigits) (max maxDepth' maxDepth) cs = .ok k :=
    wider_both read'
  rw [max_comm maxDigits', max_comm maxDepth', wide] at wide'
  cases wide'
  rfl

/-- Text that a reader finds malformed is no document to any reader. -/
theorem no_document {maxDepth : ℕ} {cs : Text} (malformed : loads maxDepth cs = .error .decode)
    (j : Json) : ¬ Document cs j := by
  rintro ⟨maxDigits, maxDepth', read⟩
  have wide : loadsWithin (max maxDigits maxStrDigits) (max maxDepth' maxDepth) cs = .ok j :=
    wider_both read
  rw [loads] at malformed
  rcases loadsWithin_wider (le_max_right maxDigits maxStrDigits) (le_max_right maxDepth' maxDepth) cs
    with stopped | stopped | agrees
  · rw [malformed] at stopped
    cases stopped
  · rw [malformed] at stopped
    cases stopped
  · rw [wide, malformed] at agrees
    cases agrees

theorem setMember_distinct {members : List (Text × Json)}
    (distinct : (members.map Prod.fst).Nodup) (key : Text) (v : Json) :
    ((setMember members key v).map Prod.fst).Nodup := by
  unfold setMember
  split
  · have keys : (members.map fun m => if m.1 == key then (key, v) else m).map Prod.fst =
        members.map Prod.fst := by
      rw [List.map_map]
      apply List.map_congr_left
      intro m _
      by_cases same : m.1 = key <;> simp [same]
    rw [keys]
    exact distinct
  · rename_i fresh
    rw [List.map_append, List.map_singleton, List.nodup_append]
    refine ⟨distinct, List.pairwise_singleton _ _, ?_⟩
    intro k known k' new same
    obtain ⟨m, listed, rfl⟩ := List.mem_map.mp known
    rw [List.mem_singleton.mp new] at same
    exact fresh (List.any_eq_true.mpr ⟨m, listed, by simpa using same⟩)

theorem readMembers_distinct {maxDigits fuel depth : ℕ} {members : List (Text × Json)}
    (distinct : (members.map Prod.fst).Nodup) {cs rest : Text} {v : Json}
    (read : readMembers maxDigits fuel depth members cs = .ok (v, rest)) :
    ∃ ms, v = .obj ms ∧ (ms.map Prod.fst).Nodup := by
  induction fuel generalizing members cs with
  | zero => cases read
  | succ fuel ih =>
    simp only [readMembers] at read
    split at read
    · cases read
    · obtain ⟨⟨key, behind⟩, _, read⟩ := ok_of_bind read
      dsimp only at read
      split at read
      · cases read
      · obtain ⟨⟨w, after⟩, _, read⟩ := ok_of_bind read
        have fresh := setMember_distinct distinct key w
        dsimp only at read
        split at read
        · cases read
        · split at read
          · cases read
            exact ⟨_, rfl, fresh⟩
          · split at read
            · exact ih fresh read
            · cases read

theorem readElements_array {maxDigits fuel depth : ℕ} {elements : List Json} {cs rest : Text}
    {v : Json} (read : readElements maxDigits fuel depth elements cs = .ok (v, rest)) :
    ∃ vs, v = .arr vs := by
  induction fuel generalizing elements cs with
  | zero => cases read
  | succ fuel ih =>
    simp only [readElements] at read
    obtain ⟨⟨w, after⟩, _, read⟩ := ok_of_bind read
    dsimp only at read
    split at read
    · cases read
    · split at read
      · cases read
        exact ⟨_, rfl⟩
      · split at read
        · exact ih read
        · cases read

theorem readWord_scalar {cs rest : Text} {v : Json} (read : readWord cs = some (v, rest))
    (members : List (Text × Json)) : v ≠ .obj members := by
  obtain ⟨⟨word, w⟩, listed, found⟩ := List.exists_of_findSome?_eq_some read
  obtain ⟨after, _, same⟩ := Option.map_eq_some_iff.mp found
  cases same
  simp only [wordValues, List.mem_cons, List.not_mem_nil, or_false, Prod.mk.injEq] at listed
  rcases listed with ⟨_, rfl⟩ | ⟨_, rfl⟩ | ⟨_, rfl⟩ | ⟨_, rfl⟩ | ⟨_, rfl⟩ | ⟨_, rfl⟩ <;> simp

theorem readNumber_scalar {maxDigits : ℕ} {cs rest : Text} {v : Json}
    (read : readNumber maxDigits cs = .ok (v, rest)) (members : List (Text × Json)) :
    v ≠ .obj members := by
  rintro rfl
  unfold readNumber at read
  dsimp only at read
  generalize List.span isAsciiDigit _ = number at read
  obtain ⟨run, behind⟩ := number
  cases run with
  | nil => cases read
  | cons first more =>
    dsimp only at read
    generalize (if first = ofChar '0' then ([first], more ++ behind) else (first :: more, behind)) =
      whole at read
    split at read
    · split at read <;> cases read
    · cases read

theorem loads_distinct {maxDepth : ℕ} {cs : Text} {members : List (Text × Json)}
    (read : loads maxDepth cs = .ok (.obj members)) : (members.map Prod.fst).Nodup := by
  obtain ⟨⟨v, rest⟩, value, read⟩ := ok_of_bind read
  dsimp only at read
  split at read
  · cases read
    match shape : skipBlanks cs with
    | [] =>
      rw [shape] at value
      cases value
    | c :: t =>
      rw [shape] at value
      simp only [readValue] at value
      split at value
      · obtain ⟨⟨s, after⟩, _, value⟩ := ok_of_bind value
        cases value
      · split at value
        · split at value
          · cases value
          · split at value
            · cases value
            · split at value
              · cases value
                exact List.nodup_nil
              · have empty : (([] : List (Text × Json)).map Prod.fst).Nodup := List.nodup_nil
                obtain ⟨ms, same, distinct⟩ := readMembers_distinct empty value
                cases same
                exact distinct
        · split at value
          · split at value
            · cases value
            · split at value
              · cases value
              · split at value
                · cases value
                · obtain ⟨vs, same⟩ := readElements_array value
                  cases same
          · split at value
            · rename_i found
              cases value
              exact absurd rfl (readWord_scalar found members)
            · exact absurd rfl (readNumber_scalar value members)
  · cases read

end JsonText
