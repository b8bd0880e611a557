import ProofDesk.Proofs.Deduction.Checking
import ProofDesk.Proofs.Deduction.Shifts

namespace ProofDesk.Deduction

open Logic (Sentence)

def ProofError.renumber (shift : Path → Path) : ProofError → ProofError
  | invalidPosition p => invalidPosition (shift p)
  | scopeViolation position antecedent => scopeViolation (shift position) (shift antecedent)
  | noConclusion r => noConclusion r
  | unjustified p => unjustified (shift p)
  | referenced referrer target => referenced (shift referrer) (shift target)
  | rule e => rule e
  | mismatch position derived => mismatch (shift position) derived

theorem ProofError.renumber_id {shift : Path → Path} (e : ProofError) (same : ∀ p, shift p = p) :
    e.renumber shift = e := by
  cases e <;> simp [renumber, same]

theorem ProofError.renumber_renumber (first second : Path → Path) (e : ProofError) :
    (e.renumber first).renumber second = e.renumber fun p => second (first p) := by
  cases e <;> rfl

theorem Antecedent.renumber_renumber (first second : Path → Path) (a : Antecedent) :
    (a.renumber first).renumber second = a.renumber fun p => second (first p) := by
  cases a <;> rfl

theorem Justification.mem_citations {j : Justification} {c : Path} :
    c ∈ j.citations ↔ Antecedent.path c ∈ j.antecedents := by
  simp only [citations, List.mem_filterMap]
  constructor
  · rintro ⟨a, member, same⟩
    cases a with
    | sentence s => simp [Antecedent.path?] at same
    | path p =>
      obtain rfl : p = c := by simpa [Antecedent.path?] using same
      exact member
  · exact fun member => ⟨.path c, member, rfl⟩

theorem Justification.renumber_renumber (first second : Path → Path) (j : Justification) :
    (j.renumber first).renumber second = j.renumber fun p => second (first p) := by
  simp [renumber, Antecedent.renumber_renumber, Function.comp_def]

theorem Justification.renumber_id {shift : Path → Path} {j : Justification}
    (same : ∀ c ∈ j.citations, shift c = c) : j.renumber shift = j := by
  have unchanged : j.antecedents.map (Antecedent.renumber shift) = j.antecedents := by
    refine (List.map_congr_left fun a member => ?_).trans (List.map_id _)
    cases a with
    | sentence s => rfl
    | path c => simp [Antecedent.renumber, same c (mem_citations.mpr member)]
  rw [renumber, unchanged]

theorem Justification.citations_renumber (shift : Path → Path) (j : Justification) :
    (j.renumber shift).citations = j.citations.map shift := by
  simp only [citations, renumber, List.filterMap_map, List.map_filterMap]
  congr 1
  funext a
  cases a <;> rfl

namespace Proof

variable {p : Proof}

/-- What a node says apart from its children. -/
def label (p : Proof) : Sentence × Option Justification := (p.sentence, p.justification)

/-! Renumbering changes justifications only. -/

@[simp]
theorem renumberAll_eq_map (shift : Path → Path) (ps : List Proof) :
    renumberAll shift ps = ps.map (renumber shift) := by
  induction ps with
  | nil => rfl
  | cons p ps ih => rw [renumberAll, ih, List.map_cons]

@[simp]
theorem children_renumber (shift : Path → Path) (p : Proof) :
    (p.renumber shift).children = p.children.map (renumber shift) := by
  cases p
  simp [renumber, children]

theorem label_renumber (shift : Path → Path) (p : Proof) :
    (p.renumber shift).label = (p.sentence, p.justification.map (Justification.renumber shift)) := by
  cases p
  rfl

theorem at?_renumber (shift : Path → Path) (p : Proof) (path : Path) :
    (p.renumber shift).at? path = (p.at? path).map (renumber shift) := by
  induction path generalizing p with
  | nil => simp
  | cons i path ih =>
    rw [at?_cons, at?_cons, children_renumber, List.getElem?_map]
    cases p.children[i]? with
    | none => rfl
    | some child => exact ih child

def relabel (shift : Path → Path) (l : Sentence × Option Justification) :
    Sentence × Option Justification :=
  (l.1, l.2.map (Justification.renumber shift))

theorem label_at?_renumber (shift : Path → Path) (p : Proof) (path : Path) :
    ((p.renumber shift).at? path).map label = ((p.at? path).map label).map (relabel shift) := by
  rw [at?_renumber, Option.map_map, Option.map_map]
  congr 1
  funext q
  exact label_renumber shift q

/-! A change of the subproof at a path is seen at that path and below. -/

@[simp]
theorem children_withChildren (ps : List Proof) (p : Proof) : (p.withChildren ps).children = ps := by
  cases p
  rfl

@[simp]
theorem label_withChildren (ps : List Proof) (p : Proof) : (p.withChildren ps).label = p.label := by
  cases p
  rfl

theorem at?_modify_below (f : Proof → Proof) (path : Path) (p : Proof) (below : Path) :
    (p.modify f path).at? (path ++ below) = (p.at? path).bind fun q => (f q).at? below := by
  induction path generalizing p with
  | nil => simp [modify]
  | cons i path ih =>
    rw [modify, List.cons_append, at?_cons, at?_cons, children_withChildren, List.getElem?_modify]
    cases p.children[i]? with
    | none => rfl
    | some child => simpa using ih child

theorem label_modify_beside (f : Proof → Proof) {path q : Path} (beside : ¬ path <+: q)
    (p : Proof) : ((p.modify f path).at? q).map label = (p.at? q).map label := by
  induction path generalizing p q with
  | nil => exact absurd List.nil_prefix beside
  | cons i path ih =>
    cases q with
    | nil => simp [modify]
    | cons k q =>
      rw [modify, at?_cons, at?_cons, children_withChildren, List.getElem?_modify]
      cases p.children[k]? with
      | none => rfl
      | some child =>
        by_cases same : i = k
        · subst same
          have deeper : ¬ path <+: q := fun inside => beside (List.cons_prefix_cons.mpr ⟨rfl, inside⟩)
          simpa using ih deeper child
        · simp [same]

end Proof
end ProofDesk.Deduction
