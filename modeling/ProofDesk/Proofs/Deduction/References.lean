import ProofDesk.Proofs.Deduction.Simulation

namespace ProofDesk.Deduction

open Logic (Sentence)

namespace Path

variable {parent p : Path} {index largest size : Nat}

/-- Renumbering in place where a child has been put in: the index behind `parent` goes up by one,
unless the sum is above the largest word. -/
def insertShift? (largest : Nat) (parent : Path) (index : Nat) (p : Path) : Option Path :=
  match p[parent.length]? with
  | none => some p
  | some i =>
    if parent.isPrefixOf p && index ≤ i then
      if i + 1 ≤ largest then some (p.set parent.length (i + 1)) else none
    else some p

/-- Renumbering in place where a child has been taken away, unless the difference is negative. -/
def removeShift? (parent : Path) (index : Nat) (p : Path) : Option Path :=
  match p[parent.length]? with
  | none => some p
  | some i =>
    if parent.isPrefixOf p && index < i then
      if 1 ≤ i then some (p.set parent.length (i - 1)) else none
    else some p

theorem isPrefixOf_append (parent below : Path) : parent.isPrefixOf (parent ++ below) = true :=
  List.isPrefixOf_iff_prefix.mpr (List.prefix_append parent below)

theorem isPrefixOf_of_not_below (beside : ¬ parent <+: p) : parent.isPrefixOf p = false := by
  rw [← Bool.not_eq_true, List.isPrefixOf_iff_prefix]
  exact beside

theorem insertShift?_eq (fits : ∀ i ∈ p, i + 1 ≤ largest) :
    insertShift? largest parent index p = some (insertShift parent index p) := by
  unfold insertShift?
  by_cases inside : parent <+: p
  · rcases inside with ⟨below, rfl⟩
    rw [insertShift_append]
    cases below with
    | nil => simp [insertShift]
    | cons i below =>
      have small : i + 1 ≤ largest := fits i (by simp)
      have prefixed := isPrefixOf_append parent (i :: below)
      by_cases later : index ≤ i
      · simp [insertShift, later, small, prefixed]
      · simp [insertShift, later]
  · rw [insertShift_of_not_below inside, isPrefixOf_of_not_below inside]
    cases p[parent.length]? <;> simp

theorem removeShift?_eq (parent p : Path) (index : Nat) :
    removeShift? parent index p = some (removeShift parent index p) := by
  unfold removeShift?
  by_cases inside : parent <+: p
  · rcases inside with ⟨below, rfl⟩
    rw [removeShift_append]
    cases below with
    | nil => simp [removeShift]
    | cons i below =>
      have prefixed := isPrefixOf_append parent (i :: below)
      by_cases later : index < i
      · have positive : 1 ≤ i := by omega
        simp [removeShift, later, positive, prefixed]
      · simp [removeShift, later]
  · rw [removeShift_of_not_below inside, isPrefixOf_of_not_below inside]
    cases p[parent.length]? <;> simp

theorem lt_of_mem_insertShift (bounded : ∀ i ∈ p, i < size) :
    ∀ i ∈ insertShift parent index p, i < size + 1 := by
  fun_induction insertShift parent index p with
  | case1 index k below =>
    intro i member
    rcases List.mem_cons.mp member with rfl | later
    · have small := bounded k List.mem_cons_self
      split <;> omega
    · exact Nat.lt_succ_of_lt (bounded i (List.mem_cons_of_mem _ later))
  | case2 parent index k below ih =>
    intro i member
    rcases List.mem_cons.mp member with rfl | later
    · exact Nat.lt_succ_of_lt (bounded i List.mem_cons_self)
    · exact ih (fun i inside => bounded i (List.mem_cons_of_mem _ inside)) i later
  | case3 =>
    intro i member
    exact Nat.lt_succ_of_lt (bounded i member)
  | case4 => simp

theorem lt_of_mem_removeShift (bounded : ∀ i ∈ p, i < size) :
    ∀ i ∈ removeShift parent index p, i < size := by
  fun_induction removeShift parent index p with
  | case1 index k below =>
    intro i member
    rcases List.mem_cons.mp member with rfl | later
    · have small := bounded k List.mem_cons_self
      split <;> omega
    · exact bounded i (List.mem_cons_of_mem _ later)
  | case2 parent index k below ih =>
    intro i member
    rcases List.mem_cons.mp member with rfl | later
    · exact bounded i List.mem_cons_self
    · exact ih (fun i inside => bounded i (List.mem_cons_of_mem _ inside)) i later
  | case3 => exact bounded
  | case4 => simp

end Path

namespace Arena

variable {a after : Arena} {p : Proof} {parent path : Path} {index id : Nat}

/-- Child lists are shorter than the list of cells, and so are the indices in all citations. -/
structure Bounded (a : Arena) : Prop where
  children : ∀ cell ∈ a.cells, cell.children.length < a.cells.length
  citations : ∀ cell ∈ a.cells, ∀ c ∈ cell.citations, ∀ i ∈ c, i < a.cells.length

theorem bounded_single (s : Sentence) : (single s).Bounded := by
  constructor
  · intro cell member
    rw [List.mem_singleton.mp member]
    exact Nat.one_pos
  · intro cell member c cited
    rw [List.mem_singleton.mp member] at cited
    cases cited

theorem Bounded.of_find? (bounded : a.Bounded) (found : a.find? path = some id) :
    ∀ i ∈ path, i < a.cells.length := by
  induction path using List.reverseRecOn generalizing id with
  | nil => simp
  | append_singleton path k ih =>
    rw [find?_concat] at found
    rcases Option.bind_eq_some_iff.mp found with ⟨above, reached, child⟩
    rcases Option.bind_eq_some_iff.mp child with ⟨cell, there, linked⟩
    intro i member
    rcases List.mem_append.mp member with before | last
    · exact ih reached i before
    · rw [List.mem_singleton.mp last]
      have fits := (List.getElem?_eq_some_iff.mp linked).1
      exact Nat.lt_trans fits (bounded.children cell (List.mem_of_getElem? there))

theorem Bounded.modify {f : Cell → Cell} (bounded : a.Bounded) (id : Nat)
    (children : ∀ cell, (f cell).children.length ≤ cell.children.length)
    (citations : ∀ cell ∈ a.cells, ∀ c ∈ (f cell).citations, ∀ i ∈ c, i < a.cells.length) :
    (a.modify f id).Bounded := by
  have size : (a.modify f id).cells.length = a.cells.length := by simp [Arena.modify]
  constructor
  · intro cell member
    rw [size]
    rcases mem_modify member with old | ⟨old, inside, rfl⟩
    · exact bounded.children cell old
    · exact Nat.lt_of_le_of_lt (children old) (bounded.children old inside)
  · intro cell member
    rw [size]
    rcases mem_modify member with old | ⟨old, inside, rfl⟩
    · exact bounded.citations cell old
    · exact citations old inside

theorem Bounded.attach {j : Justification} (bounded : a.Bounded) (id : Nat)
    (small : ∀ c ∈ j.citations, ∀ i ∈ c, i < a.cells.length) : (a.attach j id).Bounded :=
  bounded.modify id (fun _ => Nat.le_refl _) fun _ _ => small

theorem Bounded.opened (bounded : a.Bounded) (s : Sentence) {parentId : Nat}
    (found : a.find? parent = some parentId) (tree : a.IsTree) :
    (a.opened s parent index parentId).Bounded := by
  have positive : 0 < a.cells.length := Nat.zero_lt_of_lt (tree.inside parent parentId found)
  have before (old : Cell)
      (member : old ∈ ((a.renumber (Path.insertShift parent index)).push s).cells) :
      old.children.length < a.cells.length ∧
        ∀ c ∈ old.citations, ∀ i ∈ c, i < a.cells.length + 1 := by
    rcases List.mem_append.mp member with inside | new
    · rcases List.mem_map.mp inside with ⟨cell, present, rfl⟩
      refine ⟨bounded.children cell present, ?_⟩
      intro c cited
      rw [Cell.citations_renumber] at cited
      rcases List.mem_map.mp cited with ⟨old, cites, rfl⟩
      exact Path.lt_of_mem_insertShift (bounded.citations cell present old cites)
    · rw [List.mem_singleton.mp new]
      refine ⟨positive, ?_⟩
      intro c cited
      cases cited
  constructor
  · intro cell member
    rw [length_opened]
    rcases mem_modify member with old | ⟨old, inside, rfl⟩
    · exact Nat.lt_succ_of_lt (before cell old).1
    · have longer : (old.children.insertIdx index a.cells.length).length ≤
          old.children.length + 1 := by
        rw [List.length_insertIdx]
        split <;> omega
      have shorter := (before old inside).1
      exact Nat.lt_of_le_of_lt longer (by omega)
  · intro cell member
    rw [length_opened]
    rcases mem_modify member with old | ⟨old, inside, rfl⟩
    · exact (before cell old).2
    · exact (before old inside).2

theorem Bounded.erased (bounded : a.Bounded) (parent : Path) (index parentId : Nat) :
    (a.erased parent index parentId).Bounded := by
  have unlinked : (a.modify (Cell.eraseChild index) parentId).Bounded := by
    refine bounded.modify parentId (fun cell => ?_) bounded.citations
    exact List.length_eraseIdx_le cell.children index
  have size := length_erased parent index parentId a
  have size' : (a.modify (Cell.eraseChild index) parentId).cells.length = a.cells.length := by
    simp [Arena.modify]
  constructor
  · intro cell member
    rw [size, ← size']
    rcases List.mem_map.mp member with ⟨old, inside, rfl⟩
    exact unlinked.children old inside
  · intro cell member c cited
    rw [size, ← size']
    rcases List.mem_map.mp member with ⟨old, inside, rfl⟩
    rw [Cell.citations_renumber] at cited
    rcases List.mem_map.mp cited with ⟨before, cites, rfl⟩
    exact Path.lt_of_mem_removeShift (unlinked.citations old inside before cites)

theorem Bounded.of_resolve {position : Path} {j : Justification} {ss : List Sentence}
    (bounded : a.Bounded) (stores : Stores a p)
    (resolved : a.resolve position j.antecedents = .ok ss) :
    ∀ c ∈ j.citations, ∀ i ∈ c, i < a.cells.length := by
  have same : a.resolveOne position = p.resolveOne position := funext (stores.resolveOne position)
  rw [Arena.resolve, same] at resolved
  intro c cited
  have present := (Proof.resolve_citations.mp ⟨ss, resolved⟩ c cited).1
  rw [← stores.isSome] at present
  rcases Option.isSome_iff_exists.mp present with ⟨id, found⟩
  exact bounded.of_find? found

theorem Bounded.insertAt {s : Sentence} (bounded : a.Bounded) (tree : a.IsTree)
    (done : a.insertAt s parent index = .ok (path, after)) :
    after.Bounded ∧ a.cells.length ≤ after.cells.length := by
  obtain ⟨parentId, found, _, rfl⟩ := insertAt_eq_ok done
  refine ⟨bounded.opened s found tree, ?_⟩
  rw [length_opened]
  exact Nat.le_succ _

theorem Bounded.edit {e : Edit} (bounded : a.Bounded) (stores : Stores a p)
    (done : a.edit e = .ok after) : after.Bounded := by
  cases e with
  | setSentence path s =>
    obtain ⟨id, rfl⟩ := setSentence_eq_ok done
    exact bounded.modify id (fun cell => Nat.le_refl _) bounded.citations
  | insert s parent =>
    rcases map_eq_ok_iff.mp done with ⟨⟨path, after⟩, inserted, rfl⟩
    obtain ⟨index, inserted⟩ := insert_eq_ok inserted
    exact (bounded.insertAt stores.tree inserted).1
  | insertAt s parent index =>
    rcases map_eq_ok_iff.mp done with ⟨⟨path, after⟩, inserted, rfl⟩
    exact (bounded.insertAt stores.tree inserted).1
  | insertDerived parent j =>
    rcases map_eq_ok_iff.mp done with ⟨⟨path, after⟩, put, rfl⟩
    obtain ⟨count, derived, extended, id, derivation, inserted, rfl⟩ := insertDerived_eq_ok put
    obtain ⟨index, inserted⟩ := insert_eq_ok inserted
    rcases bind_eq_ok_iff.mp derivation with ⟨ss, resolved, _⟩
    have grown := bounded.insertAt stores.tree inserted
    apply grown.1.attach id
    intro c cited i member
    exact Nat.lt_of_lt_of_le (bounded.of_resolve stores resolved c cited i member) grown.2
  | justify path j =>
    obtain ⟨ss, id, resolved, rfl⟩ := justify_eq_ok done
    exact bounded.attach id (bounded.of_resolve stores resolved)
  | remove path =>
    rcases map_eq_ok_iff.mp done with ⟨⟨removed, after⟩, taken, rfl⟩
    obtain ⟨parent, index, parentId, _, _, rfl⟩ := remove_eq_ok taken
    exact bounded.erased parent index parentId

theorem Bounded.tryEdit (bounded : a.Bounded) (stores : Stores a p) (e : Edit) :
    (a.tryEdit e).Bounded := by
  unfold Arena.tryEdit
  cases done : a.edit e with
  | error _ => exact bounded
  | ok after => exact bounded.edit stores done

theorem bounded_ofHistory (s : Sentence) (history : List Edit) : (ofHistory s history).Bounded := by
  -- that the cells store a proof is what tells which citations lead to cells
  have kept : (ofHistory s history).Bounded ∧
      Stores (ofHistory s history) (Proof.ofHistory s history) := by
    unfold ofHistory Proof.ofHistory
    apply List.foldl_rel (r := fun a p => Bounded a ∧ Stores a p)
    · exact ⟨bounded_single s, stores_single s⟩
    · intro e _ a p inv
      exact ⟨inv.1.tryEdit inv.2 e, inv.2.tryEdit e⟩
  exact kept.1

/-- What holds of the references in the cells of a proof, whatever edits they have gone through. -/
structure WellReferenced (a : Arena) (p : Proof) : Prop where
  stores : Stores a p
  distinct : ∀ path path' id, a.find? path = some id → a.find? path' = some id → path = path'
  cited : ∀ path cell, a.cell? path = some cell → ∀ c ∈ cell.citations,
    (a.cell? c).isSome ∧ c.inScope path = true
  verdicts : ∀ path e, (a.cell? path).isSome → a.verify path = .error e →
    (∀ q, e ≠ .invalidPosition q) ∧ ∀ q c, e ≠ .scopeViolation q c
  /-- Renumbering in place never fails, as long as the cells can be counted in a word. -/
  renumbered : ∀ largest, a.cells.length ≤ largest → ∀ cell ∈ a.cells, ∀ c ∈ cell.citations,
    ∀ parent index,
      Path.insertShift? largest parent index c = some (Path.insertShift parent index c) ∧
      Path.removeShift? parent index c = some (Path.removeShift parent index c)

theorem Stores.citesInScope (stores : Stores a p) (cites : p.CitesInScope) (path : Path)
    (cell : Cell) (there : a.cell? path = some cell) :
    ∀ c ∈ cell.citations, (a.cell? c).isSome ∧ c.inScope path = true := by
  intro c cited
  have labels := stores.label path
  rw [there] at labels
  rcases Option.map_eq_some_iff.mp labels.symm with ⟨q, found, same⟩
  have justifications : q.justification = cell.justification := congrArg Prod.snd same
  rw [stores.tree.isSome_cell?, stores.isSome]
  apply cites path q found c
  rw [Proof.citations, justifications]
  exact cited

/-- Every history of edits leaves a proof whose references are right. -/
theorem wellReferenced_ofHistory (s : Sentence) (history : List Edit) :
    WellReferenced (ofHistory s history) (Proof.ofHistory s history) := by
  have stores := stores_ofHistory s history
  have cites := Proof.citesInScope_ofHistory s history
  have bounded := bounded_ofHistory s history
  constructor
  · exact stores
  · exact stores.tree.distinct
  · exact stores.citesInScope cites
  · intro path e there failed
    rw [stores.tree.isSome_cell?, stores.isSome] at there
    rw [stores.verify] at failed
    exact cites.verify_error there failed
  · intro largest room cell member c cited parent index
    refine ⟨Path.insertShift?_eq ?_, Path.removeShift?_eq parent c index⟩
    intro i inside
    have small := bounded.citations cell member c cited i inside
    omega

end Arena
end ProofDesk.Deduction
