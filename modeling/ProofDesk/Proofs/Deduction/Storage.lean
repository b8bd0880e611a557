import ProofDesk.Proofs.Deduction.Cells
import ProofDesk.Proofs.Deduction.Citations

namespace ProofDesk.Deduction.Arena

open Logic (Sentence)

variable {a : Arena} {p q : Proof} {cell : Cell} {parent path : Path} {index id parentId : Nat}

structure Stores (a : Arena) (p : Proof) : Prop where
  tree : a.IsTree
  label : ∀ path, (a.cell? path).map Cell.label = (p.at? path).map Proof.label

theorem cell?_of_find? (found : a.find? path = some id) : a.cell? path = a.cells[id]? := by
  rw [cell?, found, Option.bind_some]

theorem IsTree.isSome_cell? (tree : a.IsTree) (path : Path) :
    (a.cell? path).isSome = (a.find? path).isSome := by
  cases found : a.find? path with
  | none => simp [cell?, found]
  | some id =>
    obtain ⟨cell, there⟩ := tree.exists_cell found
    rw [cell?_of_find? found, there]
    rfl

theorem Stores.isSome (stores : Stores a p) (path : Path) :
    (a.find? path).isSome = (p.at? path).isSome := by
  rw [← stores.tree.isSome_cell?]
  simpa using congrArg Option.isSome (stores.label path)

theorem Stores.exists_cell (stores : Stores a p) (found : p.at? path = some q) :
    ∃ id cell, a.find? path = some id ∧ a.cells[id]? = some cell ∧ cell.label = q.label := by
  have same := stores.isSome path
  rw [found, Option.isSome_some] at same
  rcases Option.isSome_iff_exists.mp same with ⟨id, reached⟩
  obtain ⟨cell, there⟩ := stores.tree.exists_cell reached
  have labels := stores.label path
  rw [cell?_of_find? reached, there, found] at labels
  exact ⟨id, cell, reached, there, Option.some.inj labels⟩

theorem Stores.find?_eq_none (stores : Stores a p) (absent : p.at? path = none) :
    a.find? path = none := by
  have same := stores.isSome path
  rw [absent] at same
  simpa using same

theorem Stores.length_children (stores : Stores a p) (found : p.at? path = some q)
    (reached : a.find? path = some id) (there : a.cells[id]? = some cell) :
    cell.children.length = q.children.length := by
  have same (i : Nat) : i < cell.children.length ↔ i < q.children.length := by
    have children := stores.isSome (path ++ [i])
    rw [find?_concat, reached, Option.bind_some, child?, there, Option.bind_some,
      Proof.at?_child found, Bool.eq_iff_iff, isSome_getElem?, isSome_getElem?] at children
    exact children
  refine Nat.le_antisymm ?_ ?_
  · by_contra more
    exact Nat.lt_irrefl _ ((same q.children.length).mp (Nat.lt_of_not_le more))
  · by_contra more
    exact Nat.lt_irrefl _ ((same cell.children.length).mpr (Nat.lt_of_not_le more))

theorem stores_single (s : Sentence) : Stores (single s) (Proof.single s) := by
  refine ⟨isTree_single s, fun path => ?_⟩
  cases path with
  | nil => rfl
  | cons i path =>
    have childless : (single s).child? 0 i = none := by simp [child?, single, Cell.single]
    rw [cell?, find?, follow?, childless, Proof.at?_cons]
    simp [Proof.single, Proof.children]

theorem Stores.find (stores : Stores a p) (path : Path) :
    Alike (fun id q => a.find? path = some id ∧ p.at? path = some q) (a.find path) (p.get path) := by
  unfold Arena.find Proof.get
  cases found : p.at? path with
  | none =>
    rw [stores.find?_eq_none found]
    exact Alike.error _
  | some q =>
    obtain ⟨id, cell, reached, _⟩ := stores.exists_cell found
    rw [reached]
    exact Alike.ok ⟨rfl, rfl⟩

theorem Stores.get (stores : Stores a p) (path : Path) :
    Alike (fun cell q => a.cell? path = some cell ∧ p.at? path = some q ∧ cell.label = q.label)
      (a.get path) (p.get path) := by
  unfold Arena.get Proof.get
  cases found : p.at? path with
  | none =>
    have absent : a.cell? path = none := by rw [cell?, stores.find?_eq_none found, Option.bind_none]
    rw [absent]
    exact Alike.error _
  | some q =>
    obtain ⟨id, cell, reached, there, same⟩ := stores.exists_cell found
    rw [cell?_of_find? reached, there]
    exact Alike.ok ⟨rfl, rfl, same⟩

theorem Stores.childCount (stores : Stores a p) (path : Path) :
    a.childCount path = p.childCount path := by
  unfold Arena.childCount Proof.childCount
  apply (stores.get path).bind_eq
  intro cell q lookup
  rcases lookup with ⟨there, found, _⟩
  obtain ⟨id, _, reached, _⟩ := stores.exists_cell found
  rw [cell?_of_find? reached] at there
  rw [stores.length_children found reached there]

theorem Stores.resolveOne (stores : Stores a p) (position : Path) (antecedent : Antecedent) :
    a.resolveOne position antecedent = p.resolveOne position antecedent := by
  cases antecedent with
  | sentence s => rfl
  | path c =>
    have sentences : (a.get c).map Cell.sentence = (p.get c).map Proof.sentence := by
      apply (stores.get c).map_eq
      intro cell q lookup
      exact congrArg Prod.fst lookup.2.2
    rw [Arena.resolveOne, Proof.resolveOne, sentences]

theorem Stores.derive (stores : Stores a p) (position : Path) (j : Justification) :
    a.derive position j = p.derive position j := by
  have antecedents : a.resolve position j.antecedents = p.resolve position j.antecedents := by
    rw [Arena.resolve, Proof.resolve, funext (stores.resolveOne position)]
  exact congrArg (fun resolved => resolved >>= _) antecedents

theorem Stores.verify (stores : Stores a p) (path : Path) : a.verify path = p.verify path := by
  unfold Arena.verify Proof.verify
  apply (stores.get path).bind_eq
  intro cell q lookup
  have sentences : cell.sentence = q.sentence := congrArg Prod.fst lookup.2.2
  have justifications : cell.justification = q.justification := congrArg Prod.snd lookup.2.2
  rw [sentences, justifications]
  cases q.justification with
  | none => rfl
  | some j =>
    dsimp only
    rw [stores.derive]

end ProofDesk.Deduction.Arena
