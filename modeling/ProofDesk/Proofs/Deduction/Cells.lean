import Mathlib.Data.List.Induction
import ProofDesk.Deduction.Arena
import ProofDesk.Proofs.Deduction.Openings

namespace ProofDesk.Deduction

open Logic (Sentence)

def Cell.label (cell : Cell) : Sentence × Option Justification := (cell.sentence, cell.justification)

theorem Cell.citations_renumber (shift : Path → Path) (cell : Cell) :
    (cell.renumber shift).citations = cell.citations.map shift := by
  rcases cell with ⟨s, j, children⟩
  cases j with
  | none => rfl
  | some j => exact Justification.citations_renumber shift j

namespace Arena

variable {a b : Arena} {parent path : Path} {index id parentId : Nat} {f : Cell → Cell}

/-- Every path leads to a cell, if anywhere, and no cell is reached by two paths. -/
structure IsTree (a : Arena) : Prop where
  inside : ∀ path id, a.find? path = some id → id < a.cells.length
  distinct : ∀ path path' id, a.find? path = some id → a.find? path' = some id → path = path'

theorem follow?_append (a : Arena) (id : Nat) (path below : Path) :
    a.follow? id (path ++ below) = (a.follow? id path).bind fun reached => a.follow? reached below := by
  induction path generalizing id with
  | nil => simp [follow?]
  | cons index path ih =>
    rw [List.cons_append, follow?, follow?]
    cases a.child? id index with
    | none => rfl
    | some child => exact ih child

@[simp]
theorem find?_nil (a : Arena) : a.find? [] = some 0 := by
  rw [find?, follow?]

theorem find?_append (a : Arena) (path below : Path) :
    a.find? (path ++ below) = (a.find? path).bind fun id => a.follow? id below :=
  follow?_append a 0 path below

theorem find?_concat (a : Arena) (path : Path) (index : Nat) :
    a.find? (path ++ [index]) = (a.find? path).bind fun id => a.child? id index := by
  rw [find?_append]
  congr 1
  funext id
  rw [follow?]
  cases a.child? id index <;> simp [follow?]

theorem find?_congr (same : ∀ id index, b.child? id index = a.child? id index) (path : Path) :
    b.find? path = a.find? path := by
  induction path using List.reverseRecOn with
  | nil => simp
  | append_singleton path index ih =>
    rw [find?_concat, find?_concat, ih]
    simp only [same]

theorem IsTree.exists_cell (tree : a.IsTree) (found : a.find? path = some id) :
    ∃ cell, a.cells[id]? = some cell :=
  ⟨_, List.getElem?_eq_getElem (tree.inside path id found)⟩

theorem isTree_single (s : Sentence) : (single s).IsTree := by
  have childless (id index : Nat) : (single s).child? id index = none := by
    cases id <;> simp [child?, single, Cell.single]
  have root (path : Path) (id : Nat) (found : (single s).find? path = some id) :
      path = [] ∧ id = 0 := by
    rcases List.eq_nil_or_concat path with rfl | ⟨above, index, rfl⟩
    · exact ⟨rfl, by simpa [eq_comm] using found⟩
    · rw [List.concat_eq_append, find?_concat] at found
      cases reached : (single s).find? above <;> simp [reached, childless] at found
  constructor
  · intro path id found
    rw [(root path id found).2]
    exact Nat.one_pos
  · intro path path' id found found'
    rw [(root path id found).1, (root path' id found').1]

theorem getElem?_modify_self (f : Cell → Cell) (id : Nat) (a : Arena) :
    (a.modify f id).cells[id]? = a.cells[id]?.map f := by
  simp [modify]

theorem getElem?_modify_other (f : Cell → Cell) {i : Nat} (other : i ≠ id) (a : Arena) :
    (a.modify f id).cells[i]? = a.cells[i]? := by
  simp [modify, Ne.symm other]

theorem mem_modify {cell : Cell} (member : cell ∈ (a.modify f id).cells) :
    cell ∈ a.cells ∨ ∃ old ∈ a.cells, cell = f old := by
  rcases List.mem_iff_getElem?.mp member with ⟨i, there⟩
  by_cases same : i = id
  · subst same
    rw [getElem?_modify_self] at there
    rcases Option.map_eq_some_iff.mp there with ⟨old, inside, rfl⟩
    exact Or.inr ⟨old, List.mem_of_getElem? inside, rfl⟩
  · rw [getElem?_modify_other f same] at there
    exact Or.inl (List.mem_of_getElem? there)

theorem child?_modify_other (f : Cell → Cell) {i : Nat} (other : i ≠ id) (a : Arena) (index : Nat) :
    (a.modify f id).child? i index = a.child? i index := by
  rw [child?, child?, getElem?_modify_other f other]

theorem find?_modify (keeps : ∀ cell, (f cell).children = cell.children) (id : Nat) (a : Arena)
    (path : Path) : (a.modify f id).find? path = a.find? path := by
  refine find?_congr (fun i index => ?_) path
  by_cases same : i = id
  · subst same
    rw [child?, child?, getElem?_modify_self]
    cases a.cells[i]? with
    | none => rfl
    | some cell => simp [keeps]
  · exact child?_modify_other f same a index

theorem label_modify (keeps : ∀ cell, (f cell).label = cell.label) (id i : Nat) (a : Arena) :
    ((a.modify f id).cells[i]?).map Cell.label = (a.cells[i]?).map Cell.label := by
  by_cases same : i = id
  · subst same
    rw [getElem?_modify_self, Option.map_map]
    congr 1
    funext cell
    exact keeps cell
  · rw [getElem?_modify_other f same]

theorem IsTree.of_find? (tree : a.IsTree) (same : ∀ path, b.find? path = a.find? path)
    (size : b.cells.length = a.cells.length) : b.IsTree := by
  constructor
  · intro path id found
    rw [same] at found
    rw [size]
    exact tree.inside path id found
  · intro path path' id found found'
    rw [same] at found found'
    exact tree.distinct path path' id found found'

theorem getElem?_renumber (shift : Path → Path) (a : Arena) (id : Nat) :
    (a.renumber shift).cells[id]? = a.cells[id]?.map (Cell.renumber shift) := by
  simp [renumber]

theorem label_renumber (shift : Path → Path) (a : Arena) (id : Nat) :
    ((a.renumber shift).cells[id]?).map Cell.label =
      ((a.cells[id]?).map Cell.label).map (Proof.relabel shift) := by
  rw [getElem?_renumber]
  cases a.cells[id]? <;> rfl

theorem child?_renumber (shift : Path → Path) (a : Arena) (id index : Nat) :
    (a.renumber shift).child? id index = a.child? id index := by
  rw [child?, child?, getElem?_renumber]
  cases a.cells[id]? <;> rfl

theorem find?_renumber (shift : Path → Path) (a : Arena) (path : Path) :
    (a.renumber shift).find? path = a.find? path :=
  find?_congr (child?_renumber shift a) path

theorem child?_push (s : Sentence) (a : Arena) (id index : Nat) :
    (a.push s).child? id index = a.child? id index := by
  rw [child?, child?, push]
  rcases Nat.lt_trichotomy id a.cells.length with before | here | behind
  · rw [List.getElem?_append_left before]
  · subst here
    simp [Cell.single]
  · have absent : a.cells[id]? = none := List.getElem?_eq_none (Nat.le_of_lt behind)
    have absent' : (a.cells ++ [Cell.single s])[id]? = none := by
      refine List.getElem?_eq_none ?_
      rw [List.length_append, List.length_singleton]
      exact behind
    rw [absent, absent']

/-- The cells after a new one has become a child of another. -/
def opened (s : Sentence) (parent : Path) (index parentId : Nat) (a : Arena) : Arena :=
  ((a.renumber (Path.insertShift parent index)).push s).modify
    (Cell.insertChild index a.cells.length) parentId

theorem child?_opened_other (s : Sentence) (parent : Path) {i : Nat} (other : i ≠ parentId)
    (k : Nat) : (a.opened s parent index parentId).child? i k = a.child? i k := by
  rw [opened, child?_modify_other _ other, child?_push, child?_renumber]

theorem getElem?_opened_parent (s : Sentence) (parent : Path) (inside : parentId < a.cells.length) :
    (a.opened s parent index parentId).cells[parentId]? = a.cells[parentId]?.map fun cell =>
      (cell.renumber (Path.insertShift parent index)).insertChild index a.cells.length := by
  have before : parentId < (a.renumber (Path.insertShift parent index)).cells.length := by
    simpa [renumber] using inside
  rw [opened, getElem?_modify_self, push, List.getElem?_append_left before, getElem?_renumber,
    Option.map_map]
  rfl

theorem child?_opened_moved (s : Sentence) (parent : Path) (inside : parentId < a.cells.length)
    (k : Nat) : (a.opened s parent index parentId).child? parentId (if index ≤ k then k + 1 else k) =
      a.child? parentId k := by
  rw [child?, child?, getElem?_opened_parent s parent inside]
  cases a.cells[parentId]? with
  | none => rfl
  | some cell => exact Proof.getElem?_insertIdx_moved cell.children a.cells.length k

theorem find?_opened (tree : a.IsTree) (s : Sentence) (found : a.find? parent = some parentId)
    (path : Path) : (a.opened s parent index parentId).find? (Path.insertShift parent index path) =
      a.find? path := by
  -- from the last index on, since only the step out of the parent's cell has changed
  induction path using List.reverseRecOn with
  | nil => cases parent <;> simp [Path.insertShift]
  | append_singleton path k ih =>
    rw [Path.insertShift_concat, find?_concat]
    by_cases here : path = parent
    · subst here
      rw [Path.insertShift_parent] at ih
      rw [if_pos rfl, find?_concat, ih, found, Option.bind_some, Option.bind_some]
      exact child?_opened_moved s path (tree.inside path parentId found) k
    · rw [if_neg here, find?_concat, ih]
      cases reached : a.find? path with
      | none => rfl
      | some id =>
        -- a second path to the parent's cell would see the new child as well
        have other : id ≠ parentId := by
          intro same
          exact here (tree.distinct path parent id reached (same ▸ found))
        exact child?_opened_other s parent other k

theorem find?_opened_new (tree : a.IsTree) (s : Sentence) (found : a.find? parent = some parentId)
    {cell : Cell} (there : a.cells[parentId]? = some cell) (fits : index ≤ cell.children.length) :
    (a.opened s parent index parentId).find? (parent ++ [index]) = some a.cells.length := by
  have unmoved : (a.opened s parent index parentId).find? parent = some parentId := by
    rw [← found, ← find?_opened tree s found parent, Path.insertShift_parent]
  rw [find?_concat, unmoved, Option.bind_some, child?,
    getElem?_opened_parent s parent (tree.inside parent parentId found), there]
  change (cell.children.insertIdx index a.cells.length)[index]? = some a.cells.length
  simp [List.getElem?_insertIdx, fits]

theorem length_opened (s : Sentence) (parent : Path) (index parentId : Nat) (a : Arena) :
    (a.opened s parent index parentId).cells.length = a.cells.length + 1 := by
  simp [opened, modify, push, renumber]

theorem getElem?_opened_new (s : Sentence) (parent : Path) (inside : parentId < a.cells.length) :
    (a.opened s parent index parentId).cells[a.cells.length]? = some (Cell.single s) := by
  have other : a.cells.length ≠ parentId := Nat.ne_of_gt inside
  have size : (a.renumber (Path.insertShift parent index)).cells.length = a.cells.length := by
    simp [renumber]
  rw [opened, getElem?_modify_other _ other, push, ← size, List.getElem?_concat_length]

theorem label_opened (s : Sentence) (parent : Path) (index parentId : Nat) {i : Nat}
    (inside : i < a.cells.length) :
    ((a.opened s parent index parentId).cells[i]?).map Cell.label =
      ((a.cells[i]?).map Cell.label).map (Proof.relabel (Path.insertShift parent index)) := by
  have before : i < (a.renumber (Path.insertShift parent index)).cells.length := by
    simpa [renumber] using inside
  have keeps (cell : Cell) : (cell.insertChild index a.cells.length).label = cell.label := rfl
  rw [opened, label_modify keeps, push, List.getElem?_append_left before,
    label_renumber]

theorem find?_opened_cases (tree : a.IsTree) (s : Sentence) (found : a.find? parent = some parentId)
    {cell : Cell} (there : a.cells[parentId]? = some cell) (fits : index ≤ cell.children.length)
    (reached : (a.opened s parent index parentId).find? path = some id) :
    path = parent ++ [index] ∧ id = a.cells.length ∨
      ∃ q, path = Path.insertShift parent index q ∧ a.find? q = some id := by
  by_cases inside : parent ++ [index] <+: path
  · rcases inside with ⟨rest, rfl⟩
    rw [find?_append, find?_opened_new tree s found there fits, Option.bind_some] at reached
    cases rest with
    | nil =>
      rw [follow?, Option.some.injEq] at reached
      exact Or.inl ⟨List.append_nil _, reached.symm⟩
    | cons k rest =>
      have other : a.cells.length ≠ parentId := Nat.ne_of_gt (tree.inside parent parentId found)
      have childless : a.child? a.cells.length k = none := by simp [child?]
      rw [follow?, child?_opened_other s parent other, childless] at reached
      cases reached
  · have moved := Path.insertShift_removeShift inside
    rw [← moved, find?_opened tree s found] at reached
    exact Or.inr ⟨_, moved.symm, reached⟩

theorem IsTree.opened (tree : a.IsTree) (s : Sentence) (found : a.find? parent = some parentId)
    {cell : Cell} (there : a.cells[parentId]? = some cell) (fits : index ≤ cell.children.length) :
    (a.opened s parent index parentId).IsTree := by
  constructor
  · intro path id reached
    rw [length_opened]
    rcases find?_opened_cases tree s found there fits reached with ⟨_, rfl⟩ | ⟨q, _, reached⟩
    · exact Nat.lt_succ_self _
    · exact Nat.lt_succ_of_lt (tree.inside q id reached)
  · intro path path' id reached reached'
    rcases find?_opened_cases tree s found there fits reached with ⟨rfl, same⟩ | ⟨q, rfl, old⟩
    · rcases find?_opened_cases tree s found there fits reached' with ⟨rfl, _⟩ | ⟨q', _, reached'⟩
      · rfl
      · have inside := tree.inside q' id reached'
        omega
    · rcases find?_opened_cases tree s found there fits reached' with ⟨_, same⟩ | ⟨q', rfl, old'⟩
      · have inside := tree.inside q id old
        omega
      · rw [tree.distinct q q' id old old']

/-- The cells after a child has been unlinked. -/
def erased (parent : Path) (index parentId : Nat) (a : Arena) : Arena :=
  (a.modify (Cell.eraseChild index) parentId).renumber (Path.removeShift parent index)

theorem find?_erased (tree : a.IsTree) (found : a.find? parent = some parentId) (path : Path) :
    (a.erased parent index parentId).find? path =
      a.find? (Path.insertShift parent index path) := by
  rw [erased, find?_renumber]
  induction path using List.reverseRecOn with
  | nil => cases parent <;> simp [Path.insertShift]
  | append_singleton path k ih =>
    rw [Path.insertShift_concat, find?_concat, ih]
    by_cases here : path = parent
    · subst here
      rw [if_pos rfl, Path.insertShift_parent, find?_concat, found, Option.bind_some,
        Option.bind_some, child?, child?, getElem?_modify_self]
      cases a.cells[parentId]? with
      | none => rfl
      | some cell => exact Proof.getElem?_eraseIdx_moved cell.children k
    · rw [if_neg here, find?_concat]
      cases reached : a.find? (Path.insertShift parent index path) with
      | none => rfl
      | some id =>
        have other : id ≠ parentId := by
          intro same
          have above := tree.distinct _ parent id reached (same ▸ found)
          exact here (Path.insertShift_injective parent index (by rw [above, Path.insertShift_parent]))
        exact child?_modify_other _ other a k

theorem length_erased (parent : Path) (index parentId : Nat) (a : Arena) :
    (a.erased parent index parentId).cells.length = a.cells.length := by
  simp [erased, modify, renumber]

theorem label_erased (parent : Path) (index parentId : Nat) (a : Arena) (i : Nat) :
    ((a.erased parent index parentId).cells[i]?).map Cell.label =
      ((a.cells[i]?).map Cell.label).map (Proof.relabel (Path.removeShift parent index)) := by
  have keeps (cell : Cell) : (cell.eraseChild index).label = cell.label := rfl
  rw [erased, label_renumber, label_modify keeps]

theorem IsTree.erased (tree : a.IsTree) (found : a.find? parent = some parentId) :
    (a.erased parent index parentId).IsTree := by
  constructor
  · intro path id reached
    rw [find?_erased tree found] at reached
    rw [length_erased]
    exact tree.inside _ id reached
  · intro path path' id reached reached'
    rw [find?_erased tree found] at reached reached'
    exact Path.insertShift_injective parent index (tree.distinct _ _ id reached reached')

variable {after : Arena}

@[simp]
theorem find_eq_ok : a.find path = .ok id ↔ a.find? path = some id := by
  unfold find
  cases a.find? path <;> simp

theorem setSentence_eq_ok {s : Sentence} (done : a.setSentence path s = .ok after) :
    ∃ id, after = a.modify (fun cell => { cell with sentence := s }) id := by
  rcases bind_eq_ok_iff.mp done with ⟨id, _, done⟩
  exact ⟨id, (pure_eq_ok_iff.mp done).symm⟩

theorem insertAt_eq_ok {s : Sentence} (done : a.insertAt s parent index = .ok (path, after)) :
    ∃ parentId, a.find? parent = some parentId ∧ path = parent ++ [index] ∧
      after = a.opened s parent index parentId := by
  rcases bind_eq_ok_iff.mp done with ⟨parentId, found, done⟩
  rcases bind_eq_ok_iff.mp done with ⟨count, _, done⟩
  refine ⟨parentId, find_eq_ok.mp found, ?_⟩
  split at done
  · cases done
  · cases done
    exact ⟨rfl, rfl⟩

theorem insert_eq_ok {s : Sentence} (done : a.insert s parent = .ok (path, after)) :
    ∃ index, a.insertAt s parent index = .ok (path, after) := by
  rcases bind_eq_ok_iff.mp done with ⟨index, _, done⟩
  exact ⟨index, done⟩

theorem insertDerived_eq_ok {j : Justification}
    (done : a.insertDerived parent j = .ok (path, after)) :
    ∃ count derived extended id, a.derive (parent ++ [count]) j = .ok derived ∧
      a.insert derived parent = .ok (path, extended) ∧ after = extended.attach j id := by
  rcases bind_eq_ok_iff.mp done with ⟨count, _, done⟩
  rcases bind_eq_ok_iff.mp done with ⟨derived, derivation, done⟩
  rcases bind_eq_ok_iff.mp done with ⟨⟨place, extended⟩, inserted, done⟩
  rcases bind_eq_ok_iff.mp done with ⟨id, _, done⟩
  cases done
  exact ⟨count, derived, extended, id, derivation, inserted, rfl⟩

theorem justify_eq_ok {j : Justification} (done : a.justify path j = .ok after) :
    ∃ ss id, a.resolve path j.antecedents = .ok ss ∧ after = a.attach j id := by
  rcases bind_eq_ok_iff.mp done with ⟨id, _, done⟩
  rw [discard_bind] at done
  rcases bind_eq_ok_iff.mp done with ⟨ss, resolved, done⟩
  exact ⟨ss, id, resolved, (pure_eq_ok_iff.mp done).symm⟩

theorem remove_eq_ok {removed : Option Cell} (done : a.remove path = .ok (removed, after)) :
    ∃ parent index parentId, path = parent ++ [index] ∧ a.find? parent = some parentId ∧
      after = a.erased parent index parentId := by
  rcases List.eq_nil_or_concat path with rfl | ⟨parent, index, rfl⟩
  · cases done
  · unfold remove at done
    simp only [List.concat_eq_append, List.getLast?_append, List.getLast?_singleton,
      List.dropLast_concat, Option.some_or] at done
    rcases bind_eq_ok_iff.mp done with ⟨id, _, done⟩
    split at done
    · cases done
    · rcases bind_eq_ok_iff.mp done with ⟨parentId, found, done⟩
      cases done
      exact ⟨parent, index, parentId, List.concat_eq_append, find_eq_ok.mp found, rfl⟩

end Arena
end ProofDesk.Deduction
