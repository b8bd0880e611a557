import ProofDesk.Proofs.Deduction.Checking
import ProofDesk.Proofs.Deduction.RuleSoundness

/-!
Soundness of checked proofs.  A node that discharges an assumption opens a box: the assumption is
granted to everything below that node, and nothing outside of the box can cite into it.  So every
node holds if all that is granted to its path does, by induction on what may be cited.
-/

namespace ProofDesk.Deduction.Proof

open Logic (Sentence Structure Valuation)

universe u

variable {p : Proof} {D : Type u} {m : Structure D} {v : Valuation D}

def Assumes (p : Proof) (path : Path) (s : Sentence) : Prop :=
  ∃ j ps, p.at? path = some (.node s (some j) ps) ∧ j.rule.isAssumption = true

/-- Whether the parent of a node concludes from it by a rule that discharges its first
antecedent. -/
def Discharges (p : Proof) (path : Path) : Prop :=
  ∃ parent i s j ps, path = parent ++ [i] ∧ p.at? parent = some (.node s (some j) ps) ∧
    (j.rule = .deductionTheorem ∨ j.rule = .reductioAdAbsurdum) ∧
    j.antecedents.head? = some (.path path)

/-- What a proof starts from holds: its assumptions that are not discharged, and the antecedents
that are given as sentences. -/
structure Grounded (p : Proof) (m : Structure D) (v : Valuation D) : Prop where
  assumption : ∀ path s, p.Assumes path s → ¬ p.Discharges path → s.Holds m v
  literal : ∀ path s j ps a, p.at? path = some (.node s (some j) ps) →
    Antecedent.sentence a ∈ j.antecedents → a.Holds m v

/-- The discharged assumptions in the boxes that a path lies in hold. -/
def Granted (p : Proof) (m : Structure D) (v : Valuation D) (path : Path) : Prop :=
  ∀ parent i k s, parent ++ [k] <+: path → p.Discharges (parent ++ [i]) →
    p.Assumes (parent ++ [i]) s → s.Holds m v

/-- The node at a path holds if all that is granted to the path does. -/
def HoldsInBox (p : Proof) (m : Structure D) (v : Valuation D) (path : Path) : Prop :=
  p.Granted m v path → ∀ q, p.at? path = some q → q.sentence.Holds m v

/-- An earlier sibling of a node or of an ancestor lies in no box that the node does not lie in. -/
theorem granted_of_earlier {shared below : Path} {i j : Nat}
    (granted : p.Granted m v (shared ++ j :: below)) : p.Granted m v (shared ++ [i]) := by
  intro parent k l s inside
  rcases List.prefix_concat_iff.mp inside with same | inside
  · rcases List.append_singleton_inj.mp same with ⟨rfl, _⟩
    refine granted parent k j s ⟨below, by simp⟩
  · exact granted parent k l s (inside.trans (List.prefix_append _ _))

theorem granted_of_child {path : Path} {i : Nat} (granted : p.Granted m v path)
    (own : ∀ k s, p.Discharges (path ++ [k]) → p.Assumes (path ++ [k]) s → s.Holds m v) :
    p.Granted m v (path ++ [i]) := by
  intro parent k l s inside
  rcases List.prefix_concat_iff.mp inside with same | inside
  · rcases List.append_singleton_inj.mp same with ⟨rfl, _⟩
    exact own k s
  · exact granted parent k l s inside

theorem supported_of_cited {path : Path} {s : Sentence} {j : Justification} {ps : List Proof}
    {ss : List Sentence} (found : p.at? path = some (.node s (some j) ps))
    (resolved : p.resolve path j.antecedents = .ok ss) (grounded : p.Grounded m v)
    (cited : ∀ c, c.inScope path = true → p.HoldsInBox m v c) (granted : p.Granted m v path) :
    j.rule.Supported m v ss := by
  intro a member assumed
  obtain ⟨given, inside, denoted⟩ := exists_antecedent_of_resolve resolved member
  cases given with
  | sentence b =>
    obtain rfl := resolveOne_sentence.mp denoted
    exact grounded.literal path s j ps b found inside
  | path c =>
    rcases resolveOne_path.mp denoted with ⟨visible, q, there, rfl⟩
    refine cited c visible ?_ q there
    rcases Path.inScope_iff.mp visible with ⟨i, rfl⟩ | ⟨shared, i, k, below, rfl, rfl, _⟩
    · apply granted_of_child granted
      intro k t discharged assumes
      -- the only box that the node opens is that of its first antecedent, which is assumed here
      rcases discharged with ⟨parent, l, s', j', ps', same, found', rule, first⟩
      rcases List.append_singleton_inj.mp same with ⟨rfl, _⟩
      obtain ⟨rfl, rfl, rfl⟩ : s = s' ∧ j = j' ∧ ps = ps' := by simpa [found] using found'
      obtain ⟨t', head, denoted'⟩ := resolve_head resolved first
      rcases resolveOne_path.mp denoted' with ⟨_, q', there', rfl⟩
      rcases assumes with ⟨j'', ps'', there'', _⟩
      obtain rfl := Option.some.inj (there'.symm.trans there'')
      have discharging : j.rule.discharges = true := by
        rcases rule with rule | rule <;> rw [rule] <;> rfl
      exact assumed discharging _ head
    · exact granted_of_earlier granted

/-- A verified node holds in its box if everything in its scope does. -/
theorem node_holds {path : Path} (verified : p.verify path = .ok ())
    (plain : ∀ s j ps, p.at? path = some (.node s (some j) ps) → j.rule.changesValuation = false)
    (grounded : p.Grounded m v) (cited : ∀ c, c.inScope path = true → p.HoldsInBox m v c) :
    p.HoldsInBox m v path := by
  intro granted q there
  rcases verify_eq_ok.mp verified with ⟨s, j, ps, found, assumed | derived⟩
  · obtain rfl := Option.some.inj (there.symm.trans found)
    have assumes : p.Assumes path s := ⟨j, ps, found, assumed⟩
    -- an assumption is granted by the box of its parent, or the proof starts from it
    by_cases discharged : p.Discharges path
    · obtain ⟨parent, i, _, _, _, rfl, _⟩ := id discharged
      exact granted parent i i s (List.prefix_refl _) discharged assumes
    · exact grounded.assumption path s assumes discharged
  · obtain rfl := Option.some.inj (there.symm.trans found)
    rcases derive_eq_ok.mp derived with ⟨ss, resolved, applied⟩
    exact Rule.apply_sound applied (plain s j ps found) m v
      (supported_of_cited found resolved grounded cited granted)

/-- If every node is verified, a node holds in its boxes, provided that all that its subtree may
cite outside of itself does.  The induction is on the subtree, and inside of it from the first child
to the last. -/
theorem subtree_holds (verified : ∀ path, (p.at? path).isSome → p.verify path = .ok ())
    (plain : ∀ path s j ps, p.at? path = some (.node s (some j) ps) →
      j.rule.changesValuation = false)
    (grounded : p.Grounded m v) (q : Proof) (path : Path) (found : p.at? path = some q)
    (outside : ∀ c : Path, c.inScope path = true → ¬ path <+: c → p.HoldsInBox m v c) :
    p.HoldsInBox m v path := by
  have childHolds (i : Nat) : p.HoldsInBox m v (path ++ [i]) := by
    -- what a child cites outside of its subtree is an earlier child or outside of this one too
    induction i using Nat.strongRecOn with
    | _ i earlier =>
      cases reached : q.children[i]? with
      | none =>
        intro _ r there
        rw [at?_child found, reached] at there
        cases there
      | some child =>
        have smaller := sizeOf_child_lt reached
        have there : p.at? (path ++ [i]) = some child := by rw [at?_child found, reached]
        apply subtree_holds verified plain grounded child (path ++ [i]) there
        intro c visible notBelow
        rcases Path.outside_scope_of_child visible notBelow with ⟨k, before, rfl⟩ | ⟨visible, beyond⟩
        · exact earlier k before
        · exact outside c visible beyond
  apply node_holds (verified path (by simp [found])) (plain path) grounded
  intro c visible
  by_cases below : path <+: c
  · rcases Path.inScope_iff.mp visible with ⟨i, rfl⟩ | ⟨shared, i, k, rest, rfl, rfl, earlier⟩
    · exact childHolds i
    · exact absurd below (Path.not_above_earlier earlier)
  · exact outside c visible below
termination_by sizeOf q

/-- Every node of a checked proof holds in its boxes; the root lies in none. -/
theorem root_holds_of_check (checked : p.check [] = true)
    (plain : ∀ path s j ps, p.at? path = some (.node s (some j) ps) →
      j.rule ≠ .universalGeneralization ∧ j.rule ≠ .existentialInstantiation)
    (m : Structure D) (v : Valuation D) (grounded : p.Grounded m v) : p.sentence.Holds m v := by
  have verified (path : Path) (present : (p.at? path).isSome) : p.verify path = .ok () :=
    (check_iff.mp checked).2 path List.nil_prefix present
  have keepsValuation (path s j ps) (found : p.at? path = some (.node s (some j) ps)) :
      j.rule.changesValuation = false := by
    obtain ⟨notGeneralized, notInstantiated⟩ := plain path s j ps found
    revert notGeneralized notInstantiated
    cases j.rule <;> simp [Rule.changesValuation]
  have nothingOutside (c : Path) (visible : c.inScope [] = true) (outside : ¬ [] <+: c) :
      p.HoldsInBox m v c := absurd List.nil_prefix outside
  have noBox : p.Granted m v [] := by
    intro parent i k s inside
    simp at inside
  exact subtree_holds verified keepsValuation grounded p [] (at?_nil p) nothingOutside noBox p
    (at?_nil p)

/-- A false assumption is discharged by the root; the other conjunct is given as a sentence. -/
def boxedConjunction : Proof :=
  .node (.binary .implication (.truth false) (.binary .conjunction (.truth false) (.truth true)))
    (some { rule := .deductionTheorem, antecedents := [.path [0], .path [1]] })
    [.node (.truth false) (some { rule := .hypothesis }) [],
      .node (.binary .conjunction (.truth false) (.truth true))
        (some { rule := .adjunction, antecedents := [.path [0], .sentence (.truth true)] }) []]

theorem boxedConjunction_cases {path : Path} {s : Sentence} {j : Justification} {ps : List Proof}
    (found : boxedConjunction.at? path = some (.node s (some j) ps)) :
    (path = [] ∧ j = { rule := .deductionTheorem, antecedents := [.path [0], .path [1]] }) ∨
    (path = [0] ∧ s = .truth false ∧ j = { rule := .hypothesis }) ∨
    (path = [1] ∧
      j = { rule := .adjunction, antecedents := [.path [0], .sentence (.truth true)] }) := by
  have member := (mem_nodes boxedConjunction).mpr found
  simp [boxedConjunction, nodes, nodesFrom] at member
  grind

def falseStructure : Structure Unit := ⟨fun _ _ => (), fun _ => False, fun _ _ => False⟩

theorem boxedConjunction_grounded : boxedConjunction.Grounded falseStructure fun _ => () := by
  constructor
  · rintro path s ⟨j, ps, found, assumed⟩ kept
    rcases boxedConjunction_cases found with ⟨rfl, rfl⟩ | ⟨rfl, rfl, rfl⟩ | ⟨rfl, rfl⟩
    · cases assumed
    · exact absurd ⟨[], 0, _, _, _, rfl, rfl, Or.inl rfl, rfl⟩ kept
    · cases assumed
  · intro path s j ps a found member
    rcases boxedConjunction_cases found with ⟨rfl, rfl⟩ | ⟨rfl, rfl, rfl⟩ | ⟨rfl, rfl⟩
    · simp at member
    · simp at member
    · simp only [List.mem_cons, reduceCtorEq, Antecedent.sentence.injEq, List.not_mem_nil,
        or_false, false_or] at member
      rw [member]
      rfl

theorem boxedConjunction_holds :
    boxedConjunction.check [] = true ∧
      (boxedConjunction.Grounded falseStructure fun _ => ()) ∧
      boxedConjunction.sentence.Holds falseStructure fun _ => () := by
  have checked : boxedConjunction.check [] = true := by decide
  refine ⟨checked, boxedConjunction_grounded, ?_⟩
  refine root_holds_of_check checked ?_ falseStructure _ boxedConjunction_grounded
  intro path s j ps found
  rcases boxedConjunction_cases found with ⟨rfl, rfl⟩ | ⟨rfl, rfl, rfl⟩ | ⟨rfl, rfl⟩ <;> simp

end ProofDesk.Deduction.Proof
