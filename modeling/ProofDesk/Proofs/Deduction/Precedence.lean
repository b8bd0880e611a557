import Mathlib.Logic.Relation
import ProofDesk.Proofs.Deduction.Citations

namespace ProofDesk.Deduction

open Logic (Sentence)

namespace Path

/-- Post-order of paths: what is below a node comes before it, and an earlier sibling with
everything below it comes before a later one. -/
def Precedes : Path → Path → Prop
  | [], _ => False
  | _ :: _, [] => True
  | i :: p, j :: q => i < j ∨ i = j ∧ Precedes p q

theorem not_precedes_self (p : Path) : ¬p.Precedes p := by
  induction p with
  | nil => exact not_false
  | cons i p ih =>
    rintro (earlier | ⟨-, before⟩)
    · exact Nat.lt_irrefl i earlier
    · exact ih before

theorem Precedes.trans {p q r : Path} (first : p.Precedes q) (second : q.Precedes r) :
    p.Precedes r := by
  induction p generalizing q r with
  | nil => exact first.elim
  | cons i p ih =>
    cases r with
    | nil => trivial
    | cons k r =>
      cases q with
      | nil => exact second.elim
      | cons j q =>
        rcases first with earlier | ⟨rfl, first⟩
        · rcases second with later | ⟨rfl, _⟩
          · exact Or.inl (Nat.lt_trans earlier later)
          · exact Or.inl earlier
        · rcases second with later | ⟨rfl, second⟩
          · exact Or.inl later
          · exact Or.inr ⟨rfl, ih first second⟩

theorem precedes_append (shared : Path) {p q : Path} (before : p.Precedes q) :
    (shared ++ p).Precedes (shared ++ q) := by
  induction shared with
  | nil => exact before
  | cons i shared ih => exact Or.inr ⟨rfl, ih⟩

theorem precedes_of_inScope {cited citing : Path} (visible : cited.inScope citing = true) :
    cited.Precedes citing := by
  rcases inScope_iff.mp visible with ⟨i, rfl⟩ | ⟨shared, i, j, below, rfl, rfl, earlier⟩
  · have child : Path.Precedes [i] [] := trivial
    simpa using precedes_append citing child
  · exact precedes_append shared (Or.inl earlier)

end Path

namespace Proof

mutual

/-- The paths of all nodes, those of the children before that of their parent. -/
def postorder : Proof → List Path
  | node _ _ ps => postorderFrom 0 ps ++ [[]]

def postorderFrom : Nat → List Proof → List Path
  | _, [] => []
  | i, p :: ps => p.postorder.map (i :: ·) ++ postorderFrom (i + 1) ps

end

mutual

theorem mem_postorder {path : Path} : ∀ p : Proof, path ∈ p.postorder ↔ (p.at? path).isSome
  | node s j ps => by
    rw [postorder, List.mem_append, mem_postorderFrom ps 0, List.mem_singleton]
    cases path with
    | nil => simp
    | cons i below =>
      rw [exists_child_iff]
      simp only [reduceCtorEq, or_false, at?_cons, children, Option.isSome_bind, Option.any_eq_true]

theorem mem_postorderFrom {path : Path} : ∀ (ps : List Proof) (first : Nat),
    path ∈ postorderFrom first ps ↔
      ∃ i below child, path = (first + i) :: below ∧ ps[i]? = some child ∧ (child.at? below).isSome
  | [], first => by simp [postorderFrom]
  | p :: ps, first => by
    rw [postorderFrom, List.mem_append, mem_postorderFrom ps (first + 1), exists_child_cons,
      List.mem_map]
    apply or_congr_left
    constructor
    · rintro ⟨below, member, rfl⟩
      exact ⟨below, rfl, (mem_postorder p).mp member⟩
    · rintro ⟨below, rfl, reached⟩
      exact ⟨below, (mem_postorder p).mpr reached, rfl⟩

end

mutual

theorem pairwise_postorder : ∀ p : Proof, p.postorder.Pairwise Path.Precedes
  | node s j ps => by
    rw [postorder, List.pairwise_append]
    refine ⟨pairwise_postorderFrom ps 0, List.pairwise_singleton _ _, ?_⟩
    intro path member root same
    obtain rfl := List.mem_singleton.mp same
    obtain ⟨i, below, child, rfl, -, -⟩ := (mem_postorderFrom ps 0).mp member
    trivial

theorem pairwise_postorderFrom : ∀ (ps : List Proof) (first : Nat),
    (postorderFrom first ps).Pairwise Path.Precedes
  | [], first => List.Pairwise.nil
  | p :: ps, first => by
    rw [postorderFrom, List.pairwise_append, List.pairwise_map]
    refine ⟨?_, pairwise_postorderFrom ps (first + 1), ?_⟩
    · exact (pairwise_postorder p).imp fun before => Or.inr ⟨rfl, before⟩
    · intro path member later memberLater
      obtain ⟨below, -, rfl⟩ := List.mem_map.mp member
      obtain ⟨i, rest, child, rfl, -, -⟩ := (mem_postorderFrom ps (first + 1)).mp memberLater
      exact Or.inl (by omega)

end

def Cites (p : Proof) (citing cited : Path) : Prop :=
  ∃ q, p.at? citing = some q ∧ cited ∈ q.citations

variable {p : Proof}

theorem precedes_of_chain
    (visible : ∀ citing cited, p.Cites citing cited → cited.inScope citing = true)
    {citing cited : Path} (chain : Relation.TransGen p.Cites citing cited) :
    cited.Precedes citing := by
  induction chain with
  | single cites => exact Path.precedes_of_inScope (visible _ _ cites)
  | tail _ cites ih => exact (Path.precedes_of_inScope (visible _ _ cites)).trans ih

theorem derive_modify_uncited {s : Sentence} {path position : Path} {j : Justification}
    (uncited : path ∉ j.citations) :
    (p.modify (withSentence s) path).derive position j = p.derive position j := by
  apply derive_congr
  intro c member
  apply sentence_of_label
  apply label_modify_other (children_withSentence s)
  rintro rfl
  exact uncited member

/-- What a node may cite comes before it in the post-order of the nodes of a proof.  If all
citations of a proof are in scope, no chain of them leads from a node back to it, and to derive a
node again, and all that it depends on, gives the same whatever the sentence of the node is. -/
theorem acyclic_of_inScope :
    (∀ cited citing : Path, cited.inScope citing = true → cited.Precedes citing) ∧
    (∀ p : Proof, p.postorder.Pairwise Path.Precedes ∧
      ∀ path, path ∈ p.postorder ↔ (p.at? path).isSome) ∧
    ∀ p : Proof, (∀ citing cited, p.Cites citing cited → cited.inScope citing = true) →
      (∀ path, ¬Relation.TransGen p.Cites path path) ∧
      ∀ path s after, p.setSentence path s = .ok after →
        ∀ position q j, Relation.ReflTransGen p.Cites path position →
          p.at? position = some q → q.justification = some j →
            after.derive position j = p.derive position j := by
  refine ⟨fun _ _ => Path.precedes_of_inScope,
    fun p => ⟨pairwise_postorder p, fun _ => mem_postorder p⟩, ?_⟩
  intro p visible
  have acyclic (path : Path) : ¬Relation.TransGen p.Cites path path := by
    intro chain
    exact path.not_precedes_self (precedes_of_chain visible chain)
  refine ⟨acyclic, ?_⟩
  intro path s after set position q j chain found justified
  obtain ⟨-, rfl⟩ := setSentence_eq_ok.mp set
  apply derive_modify_uncited
  intro cited
  have cites : p.Cites position path := by
    refine ⟨q, found, ?_⟩
    rw [citations, justified]
    exact cited
  -- to cite the changed node would close a chain that begins there
  exact acyclic path (Relation.TransGen.tail' chain cites)

def citingEarlier : Proof :=
  .node (.binary .conjunction (.truth true) (.binary .conjunction (.truth true) (.truth true)))
    (some { rule := .adjunction, antecedents := [.path [0], .path [1]] })
    [.node (.truth true)
        (some { rule := .simplification1,
                antecedents := [.sentence (.binary .conjunction (.truth true) (.truth false))] }) [],
      .node (.binary .conjunction (.truth true) (.truth true))
        (some { rule := .adjunction, antecedents := [.path [0], .path [0]] }) []]

/-- The second child changes, and what it cites is derived as before. -/
theorem acyclic_citingEarlier : ∃ after q j,
    (∀ citing cited, citingEarlier.Cites citing cited → cited.inScope citing = true) ∧
    citingEarlier.setSentence [1] (.truth false) = .ok after ∧
    Relation.ReflTransGen citingEarlier.Cites [1] [0] ∧
    citingEarlier.at? [0] = some q ∧ q.justification = some j ∧
    (∀ path, ¬Relation.TransGen citingEarlier.Cites path path) ∧
    after.derive [0] j = citingEarlier.derive [0] j ∧
    citingEarlier.derive [0] j = .ok (.truth true) := by
  have visible (citing cited : Path) (cites : citingEarlier.Cites citing cited) :
      cited.inScope citing = true := by
    obtain ⟨q, found, cited⟩ := cites
    have all : ∀ node ∈ citingEarlier.nodes, ∀ c ∈ node.2.citations, c.inScope node.1 = true := by
      decide
    exact all (citing, q) ((mem_nodes citingEarlier).mpr found) _ cited
  obtain ⟨-, -, cited⟩ := acyclic_of_inScope
  obtain ⟨acyclic, derived⟩ := cited citingEarlier visible
  have chain : Relation.ReflTransGen citingEarlier.Cites [1] [0] := .single ⟨_, rfl, by decide⟩
  exact ⟨_, _, _, visible, rfl, chain, rfl, rfl, acyclic,
    derived [1] (.truth false) _ rfl [0] _ _ chain rfl rfl, by decide⟩

end Proof
end ProofDesk.Deduction
