import Mathlib.Data.List.Nodup
import Mathlib.Data.List.Perm.Subperm
import ProofDesk.Proofs.Deduction.Storage

namespace ProofDesk.Deduction

namespace Proof

theorem paths_nodesFrom (ps : List Proof) (first : Nat) :
    (nodesFrom first ps).map Prod.fst = (List.range ps.length).flatMap fun i =>
      ((ps[i]?).map fun q => q.nodes.map fun node => (first + i) :: node.1).getD [] := by
  induction ps generalizing first with
  | nil => rfl
  | cons p ps ih =>
    have moved (i : Nat) : first + 1 + i = first + (i + 1) := by omega
    rw [nodesFrom, List.map_append, ih, List.length_cons, List.range_succ_eq_map,
      List.flatMap_cons, List.flatMap_map]
    simp only [moved, List.getElem?_cons_succ, List.getElem?_cons_zero, Option.map_some,
      Option.getD_some, List.map_map, Nat.add_zero]
    rfl

mutual

theorem nodup_paths : ∀ p : Proof, (p.nodes.map Prod.fst).Nodup
  | node s j ps => by
    rw [nodes, List.map_cons, List.nodup_cons]
    refine ⟨?_, nodup_pathsFrom ps 0⟩
    intro member
    rcases List.mem_map.mp member with ⟨⟨path, q⟩, inside, same⟩
    rcases (mem_nodesFrom ps 0).mp inside with ⟨i, below, child, rfl, _⟩
    cases same

theorem nodup_pathsFrom : ∀ (ps : List Proof) (first : Nat),
    ((nodesFrom first ps).map Prod.fst).Nodup
  | [], first => List.nodup_nil
  | p :: ps, first => by
    have start : ((p.nodes.map fun node => (first :: node.1, node.2)).map Prod.fst) =
        (p.nodes.map Prod.fst).map (List.cons first) := by
      rw [List.map_map, List.map_map]
      rfl
    rw [nodesFrom, List.map_append, start, List.nodup_append]
    refine ⟨(nodup_paths p).map List.cons_injective, nodup_pathsFrom ps (first + 1), ?_⟩
    intro path here path' later same
    rcases List.mem_map.mp here with ⟨below, _, rfl⟩
    rcases List.mem_map.mp later with ⟨⟨path', q⟩, inside, rfl⟩
    rcases (mem_nodesFrom ps (first + 1)).mp inside with ⟨i, below', child, moved, _⟩
    have heads : first = first + 1 + i := (List.cons.inj (same.trans moved)).1
    omega

end

def pathsAt (p : Proof) (path : Path) : List Path :=
  ((p.at? path).map fun q => q.nodes.map fun node => path ++ node.1).getD []

theorem pathsAt_eq {p q : Proof} {path : Path} (found : p.at? path = some q) :
    p.pathsAt path = path :: (List.range q.children.length).flatMap fun i =>
      p.pathsAt (path ++ [i]) := by
  rcases q with ⟨s, j, ps⟩
  have subtree (i : Nat) : p.pathsAt (path ++ [i]) =
      (((ps[i]?).map fun q => q.nodes.map fun node => (0 + i) :: node.1).getD []).map
        (path ++ ·) := by
    rw [pathsAt, at?_child found]
    change ((ps[i]?).map _).getD [] = _
    cases ps[i]? with
    | none => rfl
    | some child => simp
  have children : ((nodesFrom 0 ps).map Prod.fst).map (path ++ ·) =
      (List.range ps.length).flatMap fun i => p.pathsAt (path ++ [i]) := by
    rw [paths_nodesFrom, List.map_flatMap]
    congr 1
    funext i
    exact (subtree i).symm
  rw [pathsAt, found, Option.map_some, Option.getD_some, nodes, List.map_cons]
  rw [List.append_nil]
  change path :: _ = path :: (List.range ps.length).flatMap _
  rw [← children, List.map_map]
  rfl

end Proof

namespace Arena

variable {a : Arena} {p q : Proof} {path : Path} {id : Nat}

/-- Each node on a stack has the number of the cell at its path. -/
def Located (a : Arena) (todo : List (Path × Nat)) : Prop :=
  ∀ entry ∈ todo, a.find? entry.1 = some entry.2

theorem Located.push {todo : List (Path × Nat)} (located : a.Located ((path, id) :: todo)) :
    a.Located (a.below path id ++ todo) := by
  intro entry member
  rcases List.mem_append.mp member with here | later
  · have reached := located (path, id) List.mem_cons_self
    rw [below, List.mem_mapIdx] at here
    rcases here with ⟨i, fits, rfl⟩
    have child : a.child? id i = ((a.cells[id]?.map Cell.children).getD [])[i]? := by
      rw [child?]
      cases a.cells[id]? <;> rfl
    rw [find?_concat, reached, Option.bind_some, child, List.getElem?_eq_getElem fits]
  · exact located entry (List.mem_cons_of_mem _ later)

theorem Stores.paths_below (stores : Stores a p) (found : p.at? path = some q)
    (reached : a.find? path = some id) :
    (a.below path id).map Prod.fst = (List.range q.children.length).map fun i => path ++ [i] := by
  obtain ⟨cell, there⟩ := stores.tree.exists_cell reached
  rw [below, there, Option.map_some, Option.getD_some,
    ← stores.length_children found reached there]
  refine List.ext_getElem ?_ ?_
  · simp
  · intro i fits fits'
    simp

/-- What the walk still visits are the subtrees of the nodes on the stack. -/
theorem Stores.walkFrom (stores : Stores a p) (steps : Nat) (todo : List (Path × Nat))
    (located : a.Located todo)
    (enough : (todo.flatMap fun entry => p.pathsAt entry.1).length ≤ steps) :
    a.walkFrom steps todo = (todo.flatMap fun entry => p.pathsAt entry.1).map fun path =>
      (path, (a.find? path).getD 0) := by
  induction steps generalizing todo with
  | zero =>
    rw [Arena.walkFrom, List.eq_nil_of_length_eq_zero (Nat.le_zero.mp enough), List.map_nil]
  | succ steps ih =>
    cases todo with
    | nil => rfl
    | cons entry todo =>
      rcases entry with ⟨path, id⟩
      have reached : a.find? path = some id := located (path, id) List.mem_cons_self
      have present : (p.at? path).isSome := by rw [← stores.isSome, reached, Option.isSome_some]
      rcases Option.isSome_iff_exists.mp present with ⟨q, found⟩
      have children : ((a.below path id ++ todo).flatMap fun entry => p.pathsAt entry.1) =
          ((List.range q.children.length).flatMap fun i => p.pathsAt (path ++ [i])) ++
            todo.flatMap fun entry => p.pathsAt entry.1 := by
        rw [List.flatMap_append, ← List.flatMap_map (f := Prod.fst), stores.paths_below found reached,
          List.flatMap_map]
      rw [List.flatMap_cons, Proof.pathsAt_eq found, List.cons_append, ← children] at enough ⊢
      rw [List.length_cons, Nat.add_le_add_iff_right] at enough
      rw [Arena.walkFrom, ih _ located.push enough, List.map_cons, reached]
      rfl

theorem Stores.length_nodes_le (stores : Stores a p) : p.nodes.length ≤ a.cells.length := by
  have located (path : Path) (member : path ∈ p.nodes.map Prod.fst) :
      ∃ id, a.find? path = some id := by
    rcases List.mem_map.mp member with ⟨⟨path', q⟩, inside, rfl⟩
    have same := stores.isSome path'
    rw [(Proof.mem_nodes p).mp inside, Option.isSome_some] at same
    exact Option.isSome_iff_exists.mp same
  -- distinct nodes have distinct cells, so the numbers of their cells are as many
  have numbers : ((p.nodes.map Prod.fst).map fun path => (a.find? path).getD 0).Nodup := by
    apply (Proof.nodup_paths p).map_on
    intro path member path' member' same
    obtain ⟨id, reached⟩ := located path member
    obtain ⟨id', reached'⟩ := located path' member'
    rw [reached, reached', Option.getD_some, Option.getD_some] at same
    exact stores.tree.distinct path path' id reached (same ▸ reached')
  have bounded : ((p.nodes.map Prod.fst).map fun path => (a.find? path).getD 0) ⊆
      List.range a.cells.length := by
    intro id member
    rcases List.mem_map.mp member with ⟨path, inside, rfl⟩
    obtain ⟨id, reached⟩ := located path inside
    rw [reached, Option.getD_some, List.mem_range]
    exact stores.tree.inside path id reached
  have length := (List.subperm_of_subset numbers bounded).length_le
  rwa [List.length_map, List.length_map, List.length_range] at length

theorem Stores.walk (stores : Stores a p) :
    a.walk = p.nodes.map fun node => (node.1, (a.find? node.1).getD 0) := by
  have all : p.pathsAt [] = p.nodes.map Prod.fst := by
    rw [Proof.pathsAt, Proof.at?_nil]
    simp
  have located : a.Located [([], 0)] := by
    intro entry member
    rw [List.mem_singleton.mp member]
    exact find?_nil a
  have enough : ([([], 0)].flatMap fun entry : Path × Nat => p.pathsAt entry.1).length ≤
      a.cells.length := by
    rw [List.flatMap_singleton, all, List.length_map]
    exact stores.length_nodes_le
  rw [Arena.walk, stores.walkFrom _ _ located enough, List.flatMap_singleton, all, List.map_map]
  rfl

end Arena
end ProofDesk.Deduction
