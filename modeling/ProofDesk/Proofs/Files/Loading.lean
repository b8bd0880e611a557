import ProofDesk.Proofs.Files.Depiction

/-!
Loading a proof file succeeds with just the proof that depicts the file, if the citations of that
proof are in scope.  Nodes are justified while later siblings are not there yet; this changes
nothing, as no citation in scope leads to them and what is put behind moves no path.
-/

namespace ProofDesk.Files.ProofTree

open Logic (Sentence)
open Deduction (Path Proof)

/-! Building.  What is below a node depends on nothing else, so the children that a file adds to a
proof are depictions; the proof around them decides only whether the citations are in scope. -/

mutual

theorem build_eq_ok : ∀ (t : ProofTree) {s : Sentence} {path : Path} {p after : Proof},
    p.CitesInScope → p.at? path = some (.single s) → Sentence.parse t.sentence = .ok s →
    (t.build path p = .ok after ↔
      ∃ q, t.Depicts q ∧ after = p.modify (fun _ => q) path ∧ after.CitesInScope)
  | node text rule antecedents arguments bound ts, s, path, p, after => by
    intro cites found named
    have below (extended : Proof) : buildChildren ts path p = .ok extended ↔ _ :=
      buildChildren_eq_ok ts cites found rfl
    simp only [build, bind_eq_ok_iff, below, justification_eq_ok]
    constructor
    · rintro ⟨_, ⟨qs, children, rfl, cites⟩, j, grounds, done⟩
      refine ⟨.node s j qs, depicts_iff.mpr ⟨⟨named, grounds, children.length_eq⟩, children⟩, ?_⟩
      cases j with
      | none =>
        cases done
        exact ⟨Proof.extend_single_eq found, cites⟩
      | some j => exact (Proof.justify_extend_iff found).mp ⟨cites, mapError_eq_ok_iff.mp done⟩
    · rintro ⟨⟨s', j, qs⟩, depicts, rfl, cites⟩
      obtain ⟨describes, children⟩ := depicts_iff.mp depicts
      obtain rfl : s = s' := Except.ok.inj (named.symm.trans describes.sentence)
      cases j with
      | none =>
        rw [← Proof.extend_single_eq found] at cites ⊢
        exact ⟨_, ⟨qs, children, rfl, cites⟩, none, describes.justification, rfl⟩
      | some j =>
        obtain ⟨cites, done⟩ := (Proof.justify_extend_iff found).mpr ⟨rfl, cites⟩
        exact ⟨_, ⟨qs, children, rfl, cites⟩, some j, describes.justification,
          mapError_eq_ok_iff.mpr done⟩

theorem buildChildren_eq_ok : ∀ (ts : List ProofTree) {path : Path} {p q after : Proof},
    p.CitesInScope → p.at? path = some q → q.citations = [] →
    (buildChildren ts path p = .ok after ↔
      ∃ qs, List.Forall₂ Depicts ts qs ∧ after = p.extend qs path ∧ after.CitesInScope)
  | [], path, p, q, after => by
    intro cites found silent
    rw [buildChildren, pure_eq_ok_iff]
    simp only [List.forall₂_nil_left_iff, exists_eq_left, Proof.extend_nil]
    constructor
    · rintro rfl
      exact ⟨rfl, cites⟩
    · rintro ⟨rfl, -⟩
      rfl
  | t :: ts, path, p, q, after => by
    intro cites found silent
    have inserted (s : Sentence) := cites.insert_behind found s
    have first (s : Sentence) (named : Sentence.parse t.sentence = .ok s) (extended : Proof) :
        t.build _ _ = .ok extended ↔ _ :=
      build_eq_ok t (cites.extend_single found s) (Proof.at?_insert (inserted s)) named
    simp only [Proof.modify_extend found] at first
    have others (r : Proof) (cites : (p.extend [r] path).CitesInScope) :
        buildChildren ts path _ = .ok after ↔ _ :=
      buildChildren_eq_ok ts cites (Proof.at?_extend_self [r] found)
        ((Proof.citations_withChildren _ q).trans silent)
    simp only [Proof.extend_extend, List.singleton_append] at others
    simp only [buildChildren, bind_eq_ok_iff, mapError_eq_ok_iff, inserted, Except.ok.injEq]
    constructor
    · rintro ⟨s, named, _, rfl, _, built, rest⟩
      obtain ⟨r, depicts, rfl, cites⟩ := (first s named _).mp built
      obtain ⟨qs, children, same, cites⟩ := (others r cites).mp rest
      exact ⟨r :: qs, List.Forall₂.cons depicts children, same, cites⟩
    · rintro ⟨_, listed, rfl, cites⟩
      obtain ⟨r, qs, depicts, children, rfl⟩ := List.forall₂_cons_left_iff.mp listed
      have named := (depicts_iff.mp depicts).1.sentence
      -- the later children are not there yet, but no citation in scope leads to them
      have before : (p.extend [r] path).CitesInScope := by
        have extended : ((p.extend [r] path).extend qs path).CitesInScope := by
          rwa [Proof.extend_extend]
        exact extended.of_extend (Proof.at?_extend_self [r] found)
          ((Proof.citations_withChildren _ q).trans silent)
      exact ⟨r.sentence, named, _, rfl, _, (first _ named _).mpr ⟨r, depicts, rfl, before⟩,
        (others r before).mpr ⟨qs, children, rfl, cites⟩⟩

end

theorem proof_eq_ok {t : ProofTree} {p : Proof} : t.proof = .ok p ↔ t.Depicts p ∧ p.CitesInScope := by
  rw [proof]
  simp only [bind_eq_ok_iff, mapError_eq_ok_iff]
  constructor
  · rintro ⟨s, named, built⟩
    obtain ⟨q, depicts, rfl, cites⟩ :=
      (build_eq_ok t (Proof.citesInScope_single s) (Proof.at?_nil _) named).mp built
    exact ⟨depicts, cites⟩
  · rintro ⟨depicts, cites⟩
    have named := (depicts_iff.mp depicts).1.sentence
    exact ⟨p.sentence, named, (build_eq_ok t (Proof.citesInScope_single _) (Proof.at?_nil _)
      named).mpr ⟨p, depicts, rfl, cites⟩⟩

/-- A file loads if and only if its texts can be read and its citations are in scope and lead to
nodes of the file; and it loads as the proof that says at every path what the file says there. -/
theorem loads (t : ProofTree) :
    ((∃ p, t.proof = .ok p) ↔ t.Loadable) ∧
      ∀ p, t.proof = .ok p ↔ t.Loadable ∧ ∀ path, Option.Rel Describes (t.at? path) (p.at? path) := by
  constructor
  · simp only [proof_eq_ok, loadable_iff]
  · intro p
    rw [proof_eq_ok, loadable_iff]
    constructor
    · rintro ⟨depicts, cites⟩
      exact ⟨⟨p, depicts, cites⟩, depicts⟩
    · rintro ⟨⟨q, depicts, cites⟩, same⟩
      obtain rfl := depicts.unique same
      exact ⟨depicts, cites⟩

end ProofDesk.Files.ProofTree
