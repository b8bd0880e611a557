import ProofDesk.Proofs.Deduction.Positions

namespace ProofDesk.Deduction.Path

variable {parent p q : Path} {index : Nat}

/-! Where a path does not go through the parent, it stays. -/

@[simp]
theorem insertShift_append (parent below : Path) (index : Nat) :
    insertShift parent index (parent ++ below) = parent ++ insertShift [] index below := by
  induction parent with
  | nil => rfl
  | cons i parent ih => simp [insertShift, ih]

@[simp]
theorem removeShift_append (parent below : Path) (index : Nat) :
    removeShift parent index (parent ++ below) = parent ++ removeShift [] index below := by
  induction parent with
  | nil => rfl
  | cons i parent ih => simp [removeShift, ih]

theorem insertShift_of_not_below (beside : ¬ parent <+: p) : insertShift parent index p = p := by
  induction parent generalizing p with
  | nil => exact absurd List.nil_prefix beside
  | cons i parent ih =>
    cases p with
    | nil => rfl
    | cons j p =>
      by_cases same : i = j
      · subst same
        rw [List.cons_prefix_cons] at beside
        simp [insertShift, ih (by simpa using beside)]
      · simp [insertShift, same]

theorem removeShift_of_not_below (beside : ¬ parent <+: p) : removeShift parent index p = p := by
  induction parent generalizing p with
  | nil => exact absurd List.nil_prefix beside
  | cons i parent ih =>
    cases p with
    | nil => rfl
    | cons j p =>
      by_cases same : i = j
      · subst same
        rw [List.cons_prefix_cons] at beside
        simp [removeShift, ih (by simpa using beside)]
      · simp [removeShift, same]

@[simp]
theorem insertShift_parent : insertShift parent index parent = parent := by
  simpa [insertShift] using insertShift_append parent [] index

theorem insertShift_concat (parent p : Path) (index k : Nat) :
    insertShift parent index (p ++ [k]) =
      if p = parent then parent ++ [if index ≤ k then k + 1 else k]
      else insertShift parent index p ++ [k] := by
  by_cases below : parent <+: p
  · rcases below with ⟨rest, rfl⟩
    cases rest with
    | nil => simp [insertShift]
    | cons i rest => simp [insertShift]
  · have apart : p ≠ parent := fun same => below (same ▸ List.prefix_rfl)
    rw [if_neg apart, insertShift_of_not_below below]
    by_cases last : p ++ [k] = parent
    · rw [last, insertShift_parent]
    · apply insertShift_of_not_below
      intro inside
      rcases List.prefix_concat_iff.mp inside with same | inside
      · exact last same.symm
      · exact below inside

@[simp]
theorem isEmpty_insertShift (parent : Path) (index : Nat) (p : Path) :
    List.isEmpty (insertShift parent index p) = p.isEmpty := by
  fun_induction insertShift parent index p <;> rfl

/-! The two renumberings undo each other. -/

@[simp]
theorem removeShift_insertShift (parent : Path) (index : Nat) (p : Path) :
    removeShift parent index (insertShift parent index p) = p := by
  fun_induction insertShift parent index p with
  | case1 index i below =>
    simp only [removeShift, List.cons.injEq, and_true]
    split <;> split <;> omega
  | case2 parent index i below ih => simp [removeShift, ih]
  | case3 i parent index j below apart => simp [removeShift, apart]
  | case4 => simp [removeShift]

theorem insertShift_injective (parent : Path) (index : Nat) :
    Function.Injective (insertShift parent index) := by
  intro p q same
  rw [← removeShift_insertShift parent index p, same, removeShift_insertShift]

theorem not_below_insertShift (parent : Path) (index : Nat) (p : Path) :
    ¬ parent ++ [index] <+: insertShift parent index p := by
  fun_induction insertShift parent index p with
  | case1 index i below =>
    rw [List.nil_append, List.cons_prefix_cons]
    rintro ⟨same, _⟩
    split at same <;> omega
  | case2 parent index i below ih =>
    rw [List.cons_append, List.cons_prefix_cons]
    exact fun inside => ih inside.2
  | case3 i parent index j below apart =>
    rw [List.cons_append, List.cons_prefix_cons]
    exact fun inside => apart inside.1
  | case4 => simp

/-- Every path outside of the subtree of a child is the renumbered path that it was before the child
was put in. -/
theorem insertShift_removeShift (outside : ¬ parent ++ [index] <+: p) :
    insertShift parent index (removeShift parent index p) = p := by
  fun_induction removeShift parent index p with
  | case1 index i below =>
    have apart : index ≠ i := by
      rintro rfl
      exact outside ⟨below, rfl⟩
    simp only [insertShift, List.cons.injEq, and_true]
    split <;> split <;> omega
  | case2 parent index i below ih =>
    rw [List.cons_append, List.cons_prefix_cons] at outside
    simp [insertShift, ih fun inside => outside ⟨rfl, inside⟩]
  | case3 i parent index j below apart => simp [insertShift, apart]
  | case4 => simp [insertShift]

/-! Scopes and subtrees move along. -/

theorem inScope_insertShift (parent : Path) (index : Nat) (cited citing : Path) :
    (insertShift parent index cited).inScope (insertShift parent index citing) =
      cited.inScope citing := by
  induction parent generalizing cited citing with
  | nil =>
    cases cited with
    | nil => simp [insertShift, inScope]
    | cons i cited =>
      cases citing with
      | nil => simp [insertShift, inScope]
      | cons j citing =>
        -- both indices go up or only the larger one, so their order stays
        simp only [insertShift, inScope]
        split <;> split <;> grind
  | cons k parent ih =>
    cases cited with
    | nil => simp [insertShift, inScope]
    | cons i cited =>
      cases citing with
      | nil => by_cases same : k = i <;> simp [insertShift, inScope, same]
      | cons j citing =>
        by_cases same : i = j
        · subst same
          by_cases inside : k = i
          · simp [insertShift, inScope, inside, ih]
          · simp [insertShift, inScope, inside]
        · by_cases inside : k = i
          · have beside : k ≠ j := inside ▸ same
            simp only [insertShift, if_pos inside, if_neg beside, inScope, if_neg same,
              isEmpty_insertShift]
          · by_cases inside' : k = j
            · simp only [insertShift, if_neg inside, if_pos inside', inScope, if_neg same]
            · simp only [insertShift, if_neg inside, if_neg inside', inScope, if_neg same]

theorem insertShift_prefix_iff (parent : Path) (index : Nat) (p q : Path) :
    insertShift parent index p <+: insertShift parent index q ↔ p <+: q := by
  induction parent generalizing p q with
  | nil =>
    cases p with
    | nil => simp [insertShift]
    | cons i p =>
      cases q with
      | nil => simp [insertShift]
      | cons j q =>
        simp only [insertShift, List.cons_prefix_cons]
        split <;> split <;> grind
  | cons k parent ih =>
    cases p with
    | nil => simp [insertShift]
    | cons i p =>
      cases q with
      | nil => by_cases same : k = i <;> simp [insertShift, same]
      | cons j q =>
        by_cases same : i = j
        · subst same
          by_cases inside : k = i
          · simp [insertShift, inside, ih]
          · simp [insertShift, inside]
        · have apart : ¬ i :: p <+: j :: q := fun before => same (List.cons_prefix_cons.mp before).1
          refine iff_of_false ?_ apart
          simp only [insertShift]
          split <;> split <;> simp [same]

end ProofDesk.Deduction.Path
