import ProofDesk.Deduction.Report
import ProofDesk.Proofs.Deduction.Checking
import ProofDesk.Proofs.Deduction.Simulation

namespace ProofDesk.Deduction

open Logic (Sentence)

namespace Proof

/-! Pre-order is the lexicographic order of paths: a node comes before what is below it, and an
earlier sibling with everything below it before a later one. -/

mutual

theorem ordered_paths : ∀ p : Proof, (p.nodes.map Prod.fst).Pairwise (· < ·)
  | node s j ps => by
    rw [nodes, List.map_cons, List.pairwise_cons]
    refine ⟨?_, ordered_pathsFrom ps 0⟩
    intro path member
    obtain ⟨⟨path, q⟩, inside, rfl⟩ := List.mem_map.mp member
    obtain ⟨i, below, child, rfl, -, -⟩ := (mem_nodesFrom ps 0).mp inside
    exact List.nil_lt_cons _ _

theorem ordered_pathsFrom : ∀ (ps : List Proof) (first : Nat),
    ((nodesFrom first ps).map Prod.fst).Pairwise (· < ·)
  | [], first => List.Pairwise.nil
  | p :: ps, first => by
    have start : (p.nodes.map fun node => (first :: node.1, node.2)).map Prod.fst =
        (p.nodes.map Prod.fst).map (List.cons first) := by
      rw [List.map_map, List.map_map]
      rfl
    rw [nodesFrom, List.map_append, start, List.pairwise_append, List.pairwise_map]
    refine ⟨?_, ordered_pathsFrom ps (first + 1), ?_⟩
    · exact (ordered_paths p).imp fun before => List.cons_lt_cons_iff.mpr (Or.inr ⟨rfl, before⟩)
    · intro path here path' later
      obtain ⟨below, -, rfl⟩ := List.mem_map.mp here
      obtain ⟨⟨path', q⟩, inside, rfl⟩ := List.mem_map.mp later
      obtain ⟨i, below', child, rfl, -, -⟩ := (mem_nodesFrom ps (first + 1)).mp inside
      exact List.cons_lt_cons_iff.mpr (Or.inl (by omega))

end

end Proof

namespace Arena

variable {a : Arena} {p q : Proof} {path : Path}

theorem complaint?_eq_none : a.complaint? path = none ↔ a.verify path = .ok () := by
  unfold complaint?
  cases a.verify path <;> simp

theorem Stores.isSome_cell? (stores : Stores a p) (path : Path) :
    (∃ cell, a.cell? path = some cell) ↔ (p.at? path).isSome := by
  rw [← stores.isSome, ← stores.tree.isSome_cell?, Option.isSome_iff_exists]

theorem Stores.mem_paths (stores : Stores a p) (path : Path) :
    path ∈ p.nodes.map Prod.fst ↔ ∃ cell, a.cell? path = some cell := by
  rw [stores.isSome_cell?, Option.isSome_iff_exists, List.mem_map]
  constructor
  · rintro ⟨⟨path, q⟩, member, rfl⟩
    exact ⟨q, (Proof.mem_nodes p).mp member⟩
  · rintro ⟨q, found⟩
    exact ⟨(path, q), (Proof.mem_nodes p).mpr found, rfl⟩

theorem paths_root (p : Proof) : p.pathsAt [] = p.nodes.map Prod.fst := by
  rw [Proof.pathsAt, Proof.at?_nil]
  simp

theorem Stores.walk_of_enough (stores : Stores a p) {steps : Nat} (enough : a.cells.length ≤ steps) :
    a.walkFrom steps [([], 0)] = a.walk := by
  have located : a.Located [([], 0)] := by
    intro entry member
    rw [List.mem_singleton.mp member]
    exact find?_nil a
  have visited : ([([], 0)].flatMap fun entry : Path × Nat => p.pathsAt entry.1).length ≤
      a.cells.length := by
    rw [List.flatMap_singleton, paths_root, List.length_map]
    exact stores.length_nodes_le
  rw [Arena.walk, stores.walkFrom _ _ located (Nat.le_trans visited enough),
    stores.walkFrom _ _ located visited]

theorem Stores.walk_paths (stores : Stores a p) : a.walk.map Prod.fst = p.nodes.map Prod.fst := by
  rw [stores.walk, List.map_map]
  rfl

theorem Stores.check (stores : Stores a p) (path : Path) : a.check path = p.check path := by
  have valid (q : Path) : (a.complaint? q).isNone = p.isVerified q := by
    rw [Bool.eq_iff_iff, Option.isNone_iff_eq_none, complaint?_eq_none, stores.verify,
      Proof.isVerified_iff]
  have below : ((a.walk.filter fun node => path.leadsTo node.1).map Prod.fst) =
      (p.nodes.filter fun node => path.leadsTo node.1).map Prod.fst := by
    have kept {β : Type} (l : List (Path × β)) :
        (l.filter fun node => path.leadsTo node.1).map Prod.fst =
          (l.map Prod.fst).filter path.leadsTo := by
      rw [List.filter_map]
      rfl
    rw [kept, kept, stores.walk_paths]
  have shape {β : Type} (l : List (Path × β)) (f : Path → Bool) :
      (!l.isEmpty && l.all fun node => f node.1) =
        (!(l.map Prod.fst).isEmpty && (l.map Prod.fst).all f) := by
    rw [List.isEmpty_map, List.all_map]
    rfl
  have checked : a.check path = (!(a.walk.filter fun node => path.leadsTo node.1).isEmpty &&
      (a.walk.filter fun node => path.leadsTo node.1).all fun node =>
        (a.complaint? node.1).isNone) := rfl
  have checked' : p.check path = (!(p.nodes.filter fun node => path.leadsTo node.1).isEmpty &&
      (p.nodes.filter fun node => path.leadsTo node.1).all fun node => p.isVerified node.1) := rfl
  rw [checked, checked', shape _ fun q => (a.complaint? q).isNone, shape _ p.isVerified, below,
    funext valid]

theorem Stores.childPaths (stores : Stores a p) (found : p.at? path = some q) :
    a.childPaths path = (List.range q.children.length).map fun index => path ++ [index] := by
  have counted : a.childCount path = .ok q.children.length := by
    rw [stores.childCount]
    exact Proof.childCount_eq_ok.mpr ⟨q, found, rfl⟩
  rw [Arena.childPaths, counted]
  rfl

/-- What is still complained about are the nodes of the subtrees at the paths on the stack. -/
theorem Stores.errorsFrom (stores : Stores a p) (steps : Nat) (todo : List Path)
    (present : ∀ path ∈ todo, (p.at? path).isSome)
    (enough : (todo.flatMap p.pathsAt).length ≤ steps) :
    a.errorsFrom steps todo = (todo.flatMap p.pathsAt).filterMap a.complaint? := by
  induction steps generalizing todo with
  | zero =>
    rw [Arena.errorsFrom, List.eq_nil_of_length_eq_zero (Nat.le_zero.mp enough), List.filterMap_nil]
  | succ steps ih =>
    cases todo with
    | nil => rfl
    | cons path todo =>
      obtain ⟨here, later⟩ := List.forall_mem_cons.mp present
      obtain ⟨q, found⟩ := Option.isSome_iff_exists.mp here
      have children : (a.childPaths path ++ todo).flatMap p.pathsAt =
          ((List.range q.children.length).flatMap fun i => p.pathsAt (path ++ [i])) ++
            todo.flatMap p.pathsAt := by
        rw [stores.childPaths found, List.flatMap_append, List.flatMap_map]
      have inside : ∀ c ∈ a.childPaths path ++ todo, (p.at? c).isSome := by
        rw [stores.childPaths found]
        intro c member
        rcases List.mem_append.mp member with child | other
        · obtain ⟨i, listed, rfl⟩ := List.mem_map.mp child
          rw [Proof.at?_child found]
          simpa using List.mem_range.mp listed
        · exact later c other
      have order : (path :: todo).flatMap p.pathsAt =
          path :: (a.childPaths path ++ todo).flatMap p.pathsAt := by
        rw [List.flatMap_cons, Proof.pathsAt_eq found, List.cons_append, children]
      rw [order] at enough ⊢
      rw [Arena.errorsFrom, ih _ inside (Nat.le_of_succ_le_succ enough), List.filterMap_cons]
      cases a.complaint? path <;> rfl

theorem Stores.errorsFrom_root (stores : Stores a p) {steps : Nat}
    (enough : a.cells.length ≤ steps) :
    a.errorsFrom steps [[]] = (p.nodes.map Prod.fst).filterMap a.complaint? := by
  have all : [[]].flatMap p.pathsAt = p.nodes.map Prod.fst := by
    rw [List.flatMap_singleton, paths_root]
  have visited : ([[]].flatMap p.pathsAt).length ≤ steps := by
    rw [all, List.length_map]
    exact Nat.le_trans stores.length_nodes_le enough
  have root : ∀ path ∈ [([] : Path)], (p.at? path).isSome := by
    intro path member
    rw [List.mem_singleton.mp member, Proof.at?_nil, Option.isSome_some]
  rw [stores.errorsFrom _ _ root visited, all]

theorem Stores.errors (stores : Stores a p) : a.errors = p.errors := by
  rw [Arena.errors, stores.errorsFrom_root (Nat.le_refl _), Proof.errors, List.filterMap_map]
  congr 1
  funext ⟨path, q⟩
  have same := stores.verify path
  cases verdict : p.verify path <;> simp [complaint?, same, verdict]

theorem Stores.printLine (stores : Stores a p) (found : p.at? path = some q) :
    ((a.cell? path).map (Cell.printLine path)).getD [] = Proof.printLine path q := by
  obtain ⟨id, cell, reached, there, labels⟩ := stores.exists_cell found
  have sentences : cell.sentence = q.sentence := congrArg Prod.fst labels
  have justifications : cell.justification = q.justification := congrArg Prod.snd labels
  rw [cell?_of_find? reached, there, Option.map_some, Option.getD_some, Cell.printLine,
    Proof.printLine, Proof.printLine, ← sentences, ← justifications]
  rfl

theorem Stores.print_eq (stores : Stores a p) : a.print =
    (p.nodes.map Prod.fst).flatMap fun path =>
      ((a.cell? path).map (Cell.printLine path)).getD [] := by
  rw [Arena.print, stores.walk, List.flatMap_map, List.flatMap_map]
  apply List.flatMap_congr
  rintro ⟨path, q⟩ member
  obtain ⟨id, cell, reached, there, -⟩ := stores.exists_cell ((Proof.mem_nodes p).mp member)
  dsimp only
  rw [cell?_of_find? reached, reached, Option.getD_some]

theorem Stores.print (stores : Stores a p) : a.print = p.print := by
  rw [stores.print_eq, List.flatMap_map, Proof.print]
  apply List.flatMap_congr
  rintro ⟨path, q⟩ member
  exact stores.printLine ((Proof.mem_nodes p).mp member)

/-- The reports on a stored proof, each of which speaks of the given paths.  A walk that may take
more steps than there are cells visits nothing more. -/
structure Reports (a : Arena) (paths : List Path) : Prop where
  ordered : paths.Pairwise (· < ·)
  complete : ∀ path, path ∈ paths ↔ ∃ cell, a.cell? path = some cell
  walked : ∀ steps, a.cells.length ≤ steps → (a.walkFrom steps [([], 0)]).map Prod.fst = paths
  checked : ∀ path, a.check path = true ↔ (∃ cell, a.cell? path = some cell) ∧
    ∀ below, path <+: below → (∃ cell, a.cell? below = some cell) → a.verify below = .ok ()
  listed : ∀ steps, a.cells.length ≤ steps →
    a.errorsFrom steps [[]] = paths.filterMap a.complaint?
  accepted : a.errors = [] ↔ a.check [] = true
  printed : a.print = paths.flatMap fun path => ((a.cell? path).map (Cell.printLine path)).getD []

theorem Stores.check_iff (stores : Stores a p) (path : Path) : a.check path = true ↔
    (∃ cell, a.cell? path = some cell) ∧
      ∀ below, path <+: below → (∃ cell, a.cell? below = some cell) → a.verify below = .ok () := by
  rw [stores.check, Proof.check_iff]
  simp only [stores.isSome_cell?, stores.verify]

theorem Stores.errors_eq_nil (stores : Stores a p) : a.errors = [] ↔ a.check [] = true := by
  have root : ∃ cell, a.cell? [] = some cell := by
    rw [stores.isSome_cell?, Proof.at?_nil, Option.isSome_some]
  rw [Arena.errors, stores.errorsFrom_root (Nat.le_refl _), List.filterMap_eq_nil_iff,
    stores.check_iff]
  simp only [stores.mem_paths, complaint?_eq_none]
  constructor
  · intro valid
    exact ⟨root, fun below _ there => valid below there⟩
  · rintro ⟨-, valid⟩ path there
    exact valid path List.nil_prefix there

theorem Stores.reports (stores : Stores a p) : Reports a (p.nodes.map Prod.fst) where
  ordered := Proof.ordered_paths p
  complete := stores.mem_paths
  walked := by
    intro steps enough
    rw [stores.walk_of_enough enough, stores.walk_paths]
  checked := stores.check_iff
  listed := fun _ enough => stores.errorsFrom_root enough
  accepted := stores.errors_eq_nil
  printed := stores.print_eq

/-- After every history of edits, the walks over the stored proof visit its paths once and in
pre-order, and the check of a subtree, the list of complaints and the printed tree all speak of
these paths.  The proof itself is reported on in the same way. -/
theorem reports_ofHistory (start : Sentence) (history : List Edit) :
    (∃ paths, Reports (ofHistory start history) paths) ∧
      (∀ path, (Proof.ofHistory start history).check path = (ofHistory start history).check path) ∧
      (Proof.ofHistory start history).errors = (ofHistory start history).errors ∧
      (Proof.ofHistory start history).print = (ofHistory start history).print := by
  have stores := stores_ofHistory start history
  exact ⟨⟨_, stores.reports⟩, fun path => (stores.check path).symm, stores.errors.symm,
    stores.print.symm⟩

end Arena
end ProofDesk.Deduction
