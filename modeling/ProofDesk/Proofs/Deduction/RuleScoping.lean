import ProofDesk.Proofs.Deduction.RuleSoundness
import ProofDesk.Proofs.Logic.Binding

namespace ProofDesk.Deduction.Rule

open Logic (Symbol Term Sentence Connective Quantifier)

variable {rule : Rule} {q : Quantifier} {s r body : Sentence} {x c : Symbol}

theorem apply_generalization {old new : Term} :
    (generalization q).apply [s] [old, new] = .ok (some r) ↔ ∃ c x s', old.Names c ∧
      new = .var x ∧ (c = x ∨ s.isFree x = false) ∧ s.substitute c new = .ok s' ∧
        r = .quantified q x s' := by
  cases q <;> simp [generalization, apply, generalize_eq_ok]

theorem apply_instantiation {t : Term} : (instantiation q).apply [s] [t] = .ok (some r) ↔
    ∃ x body, s = .quantified q x body ∧ body.substitute x t = .ok r := by
  cases q <;> simp [instantiation, apply, instantiate_eq_ok]

theorem exists_instance (absent : (Sentence.quantified q x body).occurs c = false) :
    ∃ r, body.substitute x (.const c) = .ok r ∧ r.isFree x = false := by
  have apart := Bool.or_eq_false_iff.mp absent
  have other : x ≠ c := by simpa using apart.1
  have succeeds : ∃ r, body.substitute x (.const c) = .ok r := by
    apply Sentence.exists_substitute_iff_clear.mpr
    intro a member free binds
    rcases binds with ⟨y, bound, mentioned⟩
    obtain rfl : c = y := by simpa [Term.mentions] using mentioned
    exact Sentence.not_mem_binders_of_occurs apart.2 member bound
  rcases succeeds with ⟨r, done⟩
  refine ⟨r, done, ?_⟩
  rw [← Bool.not_eq_true, Sentence.isFree_substitute done]
  intro free
  rcases free with ⟨same, -⟩ | ⟨-, mentioned⟩
  · exact same rfl
  · exact other.symm (by simpa [Term.mentions] using mentioned)

theorem generalize_instance (placed : (Sentence.quantified q x body).WellScoped [])
    (absent : (Sentence.quantified q x body).occurs c = false)
    (done : body.substitute x (.const c) = .ok r) : r.substitute c (.var x) = .ok body := by
  have inside : body.occurs c = false := (Bool.or_eq_false_iff.mp absent).2
  rw [← x.leaf_of_mem (List.mem_singleton_self x.name)]
  exact Sentence.substitute_restores placed done (Or.inl rfl)
    (Or.inr (Sentence.not_free_of_occurs inside))

theorem instantiate_generalized (placed : r.WellScoped []) (fresh : c = x ∨ r.isFree x = false)
    (done : r.substitute c (.var x) = .ok s) : s.substitute x (.const c) = .ok r := by
  rw [← c.leaf_of_not_mem List.not_mem_nil]
  exact Sentence.substitute_restores placed done (Or.inr rfl) (fresh.imp_left Eq.symm)

/-- Among well-scoped sentences, generalization of a constant and instantiation with it undo each
other, if the constant does not occur in the quantified sentence. -/
theorem generalization_inverts_instantiation (q : Quantifier) (x c : Symbol) :
    (∀ body, (Sentence.quantified q x body).WellScoped [] →
      (Sentence.quantified q x body).occurs c = false →
      ∃ r, (instantiation q).apply [.quantified q x body] [.const c] = .ok (some r) ∧
        (generalization q).apply [r] [.const c, .var x] = .ok (some (.quantified q x body))) ∧
    ∀ r s, r.WellScoped [] →
      (generalization q).apply [r] [.const c, .var x] = .ok (some s) →
      (instantiation q).apply [s] [.const c] = .ok (some r) := by
  constructor
  · intro body placed absent
    rcases exists_instance absent with ⟨r, done, fresh⟩
    have back := generalize_instance placed absent done
    refine ⟨r, apply_instantiation.mpr ⟨x, body, rfl, done⟩, ?_⟩
    exact apply_generalization.mpr ⟨c, x, body, Or.inl rfl, rfl, Or.inr fresh, back, rfl⟩
  · intro r s placed done
    rcases apply_generalization.mp done with ⟨c', x', s', names, same, fresh, replaced, rfl⟩
    obtain rfl : x = x' := by simpa using same
    obtain rfl : c' = c := names.mentions.mp (by simp [Term.mentions])
    exact apply_instantiation.mpr ⟨x, s', rfl, instantiate_generalized placed fresh replaced⟩

/-- The variable is bound again inside.  A constant of its name can be generalized as well, and
becomes that constant again. -/
theorem generalization_inverts_instantiation_besideBinder :
    let x : Symbol := ⟨"x", by decide⟩
    let c : Symbol := ⟨"c", by decide⟩
    let d : Symbol := ⟨"d", by decide⟩
    let s (t : Term) := Sentence.besideBinder ⟨"R", by decide⟩ x ⟨"z", by decide⟩ t (.const d)
    let all := Sentence.quantified .universal x (s (.var x))
    (all.WellScoped [] ∧ all.occurs c = false ∧
      ∃ r, universalInstantiation.apply [all] [.const c] = .ok (some r) ∧
        universalGeneralization.apply [r] [.const c, .var x] = .ok (some all)) ∧
    (s (.const x)).WellScoped [] ∧
      universalGeneralization.apply [s (.const x)] [.const x, .var x] = .ok (some all) ∧
      universalInstantiation.apply [all] [.const x] = .ok (some (s (.const x))) := by
  intro x c d s all
  have placed : all.WellScoped [] := (Sentence.reclassify_eq_self_iff all []).mp (by decide)
  have absent : all.occurs c = false := by decide
  have undone := (generalization_inverts_instantiation .universal x c).1 _ placed absent
  have placed' : (s (.const x)).WellScoped [] :=
    (Sentence.reclassify_eq_self_iff (s (.const x)) []).mp (by decide)
  have generalized : universalGeneralization.apply [s (.const x)] [.const x, .var x] =
      .ok (some all) := rfl
  have undone' := (generalization_inverts_instantiation .universal x x).2 _ _ placed' generalized
  exact ⟨⟨placed, absent, undone⟩, placed', generalized, undone'⟩

/-- A property that a sentence built with a connective has exactly if its operands have it. -/
structure Compositional (P : Sentence → Prop) : Prop where
  negation : ∀ s, P (.negation s) ↔ P s
  binary : ∀ c l r, P (.binary c l r) ↔ P l ∧ P r

section Compositional

variable {P : Sentence → Prop} {a b d : Sentence}

theorem deriveFromOne_keeps (parts : Compositional P)
    (done : rule.deriveFromOne a = .ok (some r)) (first : P a) : P r := by
  cases rule <;> simp only [deriveFromOne, bind_eq_ok_iff, map_eq_ok_iff, require_eq_ok,
    pure_eq_ok_iff, Option.some.injEq, reduceCtorEq, exists_eq_right, Prod.exists,
    Sentence.operands?_eq_some, Sentence.negated?_eq_some] at done
  case doubleNegationElimination =>
    rcases done with ⟨s, rfl, rfl⟩
    rwa [parts.negation, parts.negation] at first
  case doubleNegationIntroduction =>
    subst done
    rwa [parts.negation, parts.negation]
  case simplification1 | simplification =>
    rcases done with ⟨l, r, rfl, rfl⟩
    exact ((parts.binary _ _ _).mp first).1
  case simplification2 =>
    rcases done with ⟨l, r, rfl, rfl⟩
    exact ((parts.binary _ _ _).mp first).2

theorem deriveFromTwo_keeps (parts : Compositional P)
    (done : rule.deriveFromTwo a b = .ok (some r)) (first : P a) (second : P b) : P r := by
  cases rule <;> simp only [deriveFromTwo, bind_eq_ok_iff, require_eq_ok, ensure_eq_ok,
    pure_eq_ok_iff, Option.some.injEq, reduceCtorEq, Prod.exists, Sentence.operands?_eq_some,
    Sentence.negated?_eq_some, beq_iff_eq, Bool.and_eq_true] at done
  case deductionTheorem | adjunction | addition =>
    subst done
    exact (parts.binary _ _ _).mpr ⟨first, second⟩
  case biconditionalIntroduction =>
    rcases done with ⟨l, r, rfl, _, _, _, _, _, rfl⟩
    have operands := (parts.binary _ _ _).mp first
    exact (parts.binary _ _ _).mpr operands
  case modusPonens | biconditionalElimination1 | biconditionalElimination =>
    rcases done with ⟨l, r, rfl, _, _, rfl⟩
    exact ((parts.binary _ _ _).mp first).2
  case biconditionalElimination2 =>
    rcases done with ⟨l, r, rfl, _, _, rfl⟩
    exact ((parts.binary _ _ _).mp first).1
  case disjunctiveSyllogism1 | disjunctiveSyllogism =>
    rcases done with ⟨l, r, rfl, _, _, _, _, rfl⟩
    exact ((parts.binary _ _ _).mp first).2
  case disjunctiveSyllogism2 =>
    rcases done with ⟨l, r, rfl, _, _, _, _, rfl⟩
    exact ((parts.binary _ _ _).mp first).1
  case biconditionalNeg1 | biconditionalNeg =>
    rcases done with ⟨l, r, rfl, _, _, _, _, rfl⟩
    exact (parts.negation _).mpr ((parts.binary _ _ _).mp first).2
  case modusTollens | biconditionalNeg2 =>
    rcases done with ⟨l, r, rfl, _, _, _, _, rfl⟩
    exact (parts.negation _).mpr ((parts.binary _ _ _).mp first).1

theorem deriveFromThree_keeps (parts : Compositional P)
    (done : rule.deriveFromThree a b d = .ok (some r)) (first : P a) (second : P b) : P r := by
  cases rule <;> simp only [deriveFromThree, bind_eq_ok_iff, require_eq_ok, ensure_eq_ok,
    pure_eq_ok_iff, Option.some.injEq, reduceCtorEq, Prod.exists, Sentence.operands?_eq_some,
    Sentence.negated?_eq_some, beq_iff_eq, Bool.and_eq_true] at done
  case reductioAdAbsurdum =>
    rcases done with ⟨_, _, _, _, rfl⟩
    exact (parts.negation _).mpr first
  case caseAnalysis =>
    rcases done with ⟨l, r, rfl, _, _, _, _, _, _, _, _, _, _, rfl⟩
    exact ((parts.binary _ _ _).mp first).2
  case constructiveDilemma =>
    rcases done with ⟨l₁, r₁, rfl, l₂, r₂, rfl, _, _, _, _, _, rfl⟩
    have left := (parts.binary _ _ _).mp first
    have right := (parts.binary _ _ _).mp second
    exact (parts.binary _ _ _).mpr ⟨left.2, right.2⟩

end Compositional

theorem compositional_wellScoped (bound : List Text) : Compositional (Sentence.WellScoped bound) :=
  ⟨fun _ => Iff.rfl, fun _ _ _ => Iff.rfl⟩

/-- The other constants stay outside of the new quantifier's scope, as its variable is not free. -/
theorem generalize_wellScoped {old new : Term} (placed : s.WellScoped [])
    (done : rule.generalize q s old new = .ok r) : r.WellScoped [] := by
  rcases generalize_eq_ok.mp done with ⟨c, x, s', names, rfl, fresh, replaced, rfl⟩
  apply placed.substitute replaced
  · intro y free other
    have apart : y ≠ x := by
      rintro rfl
      rcases fresh with same | absent
      · exact other same.symm
      · simp [absent] at free
    have outside : y.name ≠ x.name := fun same => apart (Symbol.ext same)
    simp [outside]
  · exact List.mem_cons_self

/-- The constants of the term do not come into the scope of a quantifier that binds one of them. -/
theorem instantiate_wellScoped {t : Term} (placed : s.WellScoped []) (ground : t.Ground)
    (done : rule.instantiate q s t = .ok r) : r.WellScoped [] := by
  rcases instantiate_eq_ok.mp done with ⟨x, body, rfl, replaced⟩
  have inside : body.WellScoped [x.name] := placed
  apply inside.substitute replaced
  · intro y free other
    have outside : y.name ≠ x.name := fun same => other (Symbol.ext same)
    simp [outside]
  · exact t.wellScoped_nil_iff.mpr ground

/-- Every rule leads from well-scoped antecedents to a well-scoped conclusion, which is read again
as it is printed, if an instantiation rule is given a term without variables. -/
theorem conclusion_wellScoped (rule : Rule) (antecedents : List Sentence) (arguments : List Term)
    (placed : ∀ a ∈ antecedents, a.WellScoped [])
    (ground : rule = universalInstantiation ∨ rule = existentialInstantiation →
      ∀ t ∈ arguments, t.Ground) (r : Sentence)
    (done : rule.apply antecedents arguments = .ok (some r)) :
    r.WellScoped [] ∧ Sentence.parse r.print = .ok r := by
  have parts := compositional_wellScoped []
  have kept : r.WellScoped [] := by
    cases concludes_of_apply done with
    | generalization q same generalized =>
      exact generalize_wellScoped (placed _ (by simp)) generalized
    | instantiation q same instantiated =>
      have instantiates : rule = universalInstantiation ∨ rule = existentialInstantiation := by
        cases q
        · exact Or.inl same
        · exact Or.inr same
      exact instantiate_wellScoped (placed _ (by simp)) (ground instantiates _ (by simp)) instantiated
    | one derived => exact deriveFromOne_keeps parts derived (placed _ (by simp))
    | two derived =>
      exact deriveFromTwo_keeps parts derived (placed _ (by simp)) (placed _ (by simp))
    | three derived =>
      exact deriveFromThree_keeps parts derived (placed _ (by simp)) (placed _ (by simp))
  have unchanged := (r.reclassify_eq_self_iff []).mpr kept
  rw [Sentence.parse_print, unchanged]
  exact ⟨kept, rfl⟩

/-- An instance by a term of constants, next to a quantifier that binds the variable again. -/
theorem conclusion_wellScoped_besideBinder :
    let x : Symbol := ⟨"x", by decide⟩
    let d : Symbol := ⟨"d", by decide⟩
    let t : Term := .app ⟨"f", by decide⟩ (.one (.const d))
    let s (u : Term) := Sentence.besideBinder ⟨"R", by decide⟩ x ⟨"z", by decide⟩ u (.const d)
    let all := Sentence.quantified .universal x (s (.var x))
    all.WellScoped [] ∧ t.Ground ∧ universalInstantiation.apply [all] [t] = .ok (some (s t)) ∧
      (s t).WellScoped [] ∧ Sentence.parse (s t).print = .ok (s t) := by
  intro x d t s all
  have placed : all.WellScoped [] := (Sentence.reclassify_eq_self_iff all []).mp (by decide)
  have ground : t.Ground := trivial
  have done : universalInstantiation.apply [all] [t] = .ok (some (s t)) := rfl
  have kept := conclusion_wellScoped universalInstantiation [all] [t] (by simpa using placed)
    (by simpa using ground) (s t) done
  exact ⟨placed, ground, done, kept⟩

end ProofDesk.Deduction.Rule
