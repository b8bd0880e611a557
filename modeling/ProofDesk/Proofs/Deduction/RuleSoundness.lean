import ProofDesk.Deduction.Rule
import ProofDesk.Proofs.Logic.Composition
import ProofDesk.Proofs.Logic.Semantics

/-!
The conclusion of a rule follows from its antecedents.  Two rules discharge their first antecedent:
their conclusions follow if the other antecedents hold whenever the first one does.  Universal
generalization and existential instantiation are no consequences under a single valuation; for them
it is said what the conclusion means.
-/

namespace ProofDesk.Logic.Sentence

@[simp]
theorem operands?_eq_some {c : Connective} {s l r : Sentence} :
    s.operands? c = some (l, r) ↔ s = .binary c l r := by
  cases s with
  | binary d l' r' =>
    by_cases same : d = c
    · simp [operands?, same]
    · simp [operands?, same]
  | _ => simp [operands?]

@[simp]
theorem negated?_eq_some {s t : Sentence} : s.negated? = some t ↔ s = .negation t := by
  cases s <;> simp [negated?]

@[simp]
theorem body?_eq_some {q : Quantifier} {s body : Sentence} {x : Symbol} :
    s.body? q = some (x, body) ↔ s = .quantified q x body := by
  cases s with
  | quantified r y t =>
    by_cases same : r = q
    · simp [body?, same]
    · simp [body?, same]
  | _ => simp [body?]

end ProofDesk.Logic.Sentence

namespace ProofDesk.Deduction.Rule

open Logic (Symbol Term Sentence Connective Quantifier Capture Structure Valuation)

universe u

variable {D : Type u} {rule : Rule}

@[simp]
theorem require_eq_ok {α : Type} {needed : Condition} {o : Option α} {a : α} :
    rule.require needed o = .ok a ↔ o = some a := by
  cases o <;> simp [require]

@[simp]
theorem ensure_eq_ok {needed : Condition} {met : Bool} {u : Unit} :
    rule.ensure needed met = .ok u ↔ met = true := by
  cases met <;> simp [ensure]

/-- Whether the conclusion of the rule holds even if the first antecedent does not. -/
def discharges : Rule → Bool
  | deductionTheorem | reductioAdAbsurdum => true
  | _ => false

/-- Whether the conclusion of the rule need not follow under the same valuation. -/
def changesValuation : Rule → Bool
  | universalGeneralization | existentialInstantiation => true
  | _ => false

def generalization : Quantifier → Rule
  | .universal => universalGeneralization
  | .existential => existentialGeneralization

def instantiation : Quantifier → Rule
  | .universal => universalInstantiation
  | .existential => existentialInstantiation

/-- How a rule comes to a conclusion: it is a quantifier rule, or it takes antecedents alone. -/
inductive Concludes (rule : Rule) (r : Sentence) : List Sentence → List Term → Prop where
  | generalization (q : Quantifier) {a : Sentence} {old new : Term} (same : rule = generalization q)
    (done : rule.generalize q a old new = .ok r) : Concludes rule r [a] [old, new]
  | instantiation (q : Quantifier) {a : Sentence} {t : Term} (same : rule = instantiation q)
    (done : rule.instantiate q a t = .ok r) : Concludes rule r [a] [t]
  | one {a : Sentence} (done : rule.deriveFromOne a = .ok (some r)) : Concludes rule r [a] []
  | two {a b : Sentence} (done : rule.deriveFromTwo a b = .ok (some r)) : Concludes rule r [a, b] []
  | three {a b c : Sentence} (done : rule.deriveFromThree a b c = .ok (some r)) :
    Concludes rule r [a, b, c] []

theorem concludes_of_apply {antecedents : List Sentence} {arguments : List Term} {r : Sentence}
    (done : rule.apply antecedents arguments = .ok (some r)) :
    rule.Concludes r antecedents arguments := by
  have applied {x : Except RuleError Sentence} (done : some <$> x = .ok (some r)) : x = .ok r := by
    simpa using done
  unfold apply at done
  split at done
  · cases done
  · cases done
  · exact .generalization .universal rfl (applied done)
  · exact .generalization .existential rfl (applied done)
  · exact .instantiation .universal rfl (applied done)
  · exact .instantiation .existential rfl (applied done)
  · exact .one done
  · exact .two done
  · exact .three done
  · cases done

theorem generalize_eq_ok {q : Quantifier} {s r : Sentence} {old new : Term} :
    rule.generalize q s old new = .ok r ↔ ∃ c x s', old.Names c ∧ new = .var x ∧
      (c = x ∨ s.isFree x = false) ∧ s.substitute c new = .ok s' ∧ r = .quantified q x s' := by
  simp only [generalize, bind_eq_ok_iff, require_eq_ok, ensure_eq_ok, mapError_eq_ok_iff,
    pure_eq_ok_iff, Bool.or_eq_true, beq_iff_eq, Bool.not_eq_true', exists_const]
  cases old <;> cases new <;> simp [Term.Names, eq_comm (b := r)]

theorem instantiate_eq_ok {q : Quantifier} {s r : Sentence} {t : Term} :
    rule.instantiate q s t = .ok r ↔
      ∃ x body, s = .quantified q x body ∧ body.substitute x t = .ok r := by
  simp only [instantiate, bind_eq_ok_iff, require_eq_ok, mapError_eq_ok_iff, Prod.exists,
    Sentence.body?_eq_some]

theorem generalize_holds {q : Quantifier} {s r : Sentence} {old new : Term}
    (done : rule.generalize q s old new = .ok r) (m : Structure D) (v : Valuation D) :
    r.Holds m v ↔ q.Ranges fun d => s.Holds m (Function.update v old.symbol d) := by
  rcases generalize_eq_ok.mp done with ⟨c, x, s', names, rfl, fresh, replaced, rfl⟩
  have symbol : old.symbol = c := by
    rcases names with rfl | rfl <;> rfl
  apply Logic.ranges_congr
  intro d
  rw [Logic.holds_substitute m replaced, symbol]
  simp only [Term.value, Function.update_self]
  rcases fresh with same | absent
  · rw [same, Function.update_idem]
  · by_cases same : c = x
    · rw [same, Function.update_idem]
    · rw [Function.update_comm (Ne.symm same), Logic.holds_update_of_not_free m absent]

theorem instantiate_holds {q : Quantifier} {s r : Sentence} {t : Term}
    (done : rule.instantiate q s t = .ok r) (m : Structure D) (v : Valuation D) :
    ∃ x body, s = .quantified q x body ∧
      (r.Holds m v ↔ body.Holds m (Function.update v x (t.value m v))) := by
  rcases instantiate_eq_ok.mp done with ⟨x, body, shape, replaced⟩
  exact ⟨x, body, shape, Logic.holds_substitute m replaced v⟩

theorem existential_generalize_sound {s r : Sentence} {old new : Term}
    (done : rule.generalize .existential s old new = .ok r) (m : Structure D) (v : Valuation D)
    (holds : s.Holds m v) : r.Holds m v := by
  have unchanged : s.Holds m (Function.update v old.symbol (v old.symbol)) := by
    rwa [Function.update_eq_self]
  exact (generalize_holds done m v).mpr ⟨v old.symbol, unchanged⟩

theorem universal_instantiate_sound {s r : Sentence} {t : Term}
    (done : rule.instantiate .universal s t = .ok r) (m : Structure D) (v : Valuation D)
    (holds : s.Holds m v) : r.Holds m v := by
  obtain ⟨x, body, rfl, meaning⟩ := instantiate_holds done m v
  exact meaning.mpr (holds (t.value m v))

/-- An instance by a constant that is not free in the antecedent holds for some value of it. -/
theorem existential_instantiate_sound {s r : Sentence} {c : Symbol}
    (done : rule.instantiate .existential s (.const c) = .ok r) (absent : s.isFree c = false)
    (m : Structure D) (v : Valuation D) (holds : s.Holds m v) :
    ∃ d, r.Holds m (Function.update v c d) := by
  obtain ⟨x, body, rfl, -⟩ := instantiate_holds done m v
  obtain ⟨d, inside⟩ := holds
  obtain ⟨y, body', same, meaning⟩ := instantiate_holds done m (Function.update v c d)
  cases same
  refine ⟨d, meaning.mpr ?_⟩
  rw [Term.value, Function.update_self]
  by_cases named : c = x
  · rw [named, Function.update_idem]
    exact inside
  · have unused : body.isFree c = false := by simpa [Sentence.isFree, Ne.symm named] using absent
    rw [Function.update_comm named, Logic.holds_update_of_not_free m unused]
    exact inside

/-- A substitution that succeeds is a change of the valuation.  So a universal generalization says the
antecedent of all values of the symbol, an existential one and a universal instance follow from the
antecedent, and an existential instance by a new constant holds for some value of it. -/
theorem quantifier_rules_hold (m : Structure D) :
    (∀ (s r : Sentence) (x : Symbol) (t : Term), s.substitute x t = .ok r → ∀ v : Valuation D,
      r.Holds m v ↔ s.Holds m (Function.update v x (t.value m v))) ∧
    (∀ (a r : Sentence) (old new : Term),
      universalGeneralization.apply [a] [old, new] = .ok (some r) → ∀ v : Valuation D,
        r.Holds m v ↔ ∀ d, a.Holds m (Function.update v old.symbol d)) ∧
    (∀ (a r : Sentence) (old new : Term),
      existentialGeneralization.apply [a] [old, new] = .ok (some r) → ∀ v : Valuation D,
        a.Holds m v → r.Holds m v) ∧
    (∀ (a r : Sentence) (t : Term),
      universalInstantiation.apply [a] [t] = .ok (some r) → ∀ v : Valuation D,
        a.Holds m v → r.Holds m v) ∧
    ∀ (a r : Sentence) (c : Symbol),
      existentialInstantiation.apply [a] [.const c] = .ok (some r) → a.isFree c = false →
        ∀ v : Valuation D, a.Holds m v → ∃ d, r.Holds m (Function.update v c d) := by
  have applied {x : Except RuleError Sentence} {r : Sentence} (done : some <$> x = .ok (some r)) :
      x = .ok r := by
    simpa using done
  refine ⟨fun s r x t done v => Logic.holds_substitute m done v, ?_, ?_, ?_, ?_⟩
  · intro a r old new done
    exact generalize_holds (applied done) m
  · intro a r old new done
    exact existential_generalize_sound (applied done) m
  · intro a r t done
    exact universal_instantiate_sound (applied done) m
  · intro a r c done absent
    exact existential_instantiate_sound (applied done) absent m

/-- Numbers: every function is the successor, and every predicate says that its first and its last
argument differ. -/
def numbers : Structure Nat where
  function _ ds := (ds.headD 0).succ
  proposition _ := False
  predicate _ ds := ds.headD 0 ≠ ds.getLastD 0

def related (relation function : Symbol) (t : Term) : Sentence :=
  .predicate relation (.cons t (.one (.app function (.one t))))

theorem quantifier_rules_hold_related :
    let c : Symbol := ⟨"c", by decide⟩
    let x : Symbol := ⟨"x", by decide⟩
    let s : Term → Sentence := related ⟨"R", by decide⟩ ⟨"f", by decide⟩
    universalGeneralization.apply [s (.const c)] [.const c, .var x] =
      .ok (some (.quantified .universal x (s (.var x)))) ∧
    universalInstantiation.apply [.quantified .universal x (s (.var x))]
      [.app x (.one (.const c))] = .ok (some (s (.app x (.one (.const c))))) ∧
    existentialGeneralization.apply [s (.const c)] [.const c, .var x] =
      .ok (some (.quantified .existential x (s (.var x)))) ∧
    existentialInstantiation.apply [.quantified .existential x (s (.var x))] [.const c] =
      .ok (some (s (.const c))) ∧
    ∀ v : Valuation Nat, (Sentence.quantified .universal x (s (.var x))).Holds numbers v ∧
      (s (.app x (.one (.const c)))).Holds numbers v ∧
      (Sentence.quantified .existential x (s (.var x))).Holds numbers v ∧
      ∃ d, (s (.const c)).Holds numbers (Function.update v c d) := by
  intro c x s
  have generalized : universalGeneralization.apply [s (.const c)] [.const c, .var x] =
      .ok (some (.quantified .universal x (s (.var x)))) := rfl
  have instantiated : universalInstantiation.apply [.quantified .universal x (s (.var x))]
      [.app x (.one (.const c))] = .ok (some (s (.app x (.one (.const c))))) := rfl
  have weakened : existentialGeneralization.apply [s (.const c)] [.const c, .var x] =
      .ok (some (.quantified .existential x (s (.var x)))) := rfl
  have chosen : existentialInstantiation.apply [.quantified .existential x (s (.var x))]
      [.const c] = .ok (some (s (.const c))) := rfl
  have absent : (Sentence.quantified .existential x (s (.var x))).isFree c = false := by decide
  have holds (v : Valuation Nat) : (s (.const c)).Holds numbers v := (Nat.succ_ne_self (v c)).symm
  obtain ⟨-, generalize, weaken, instantiate, choose⟩ := quantifier_rules_hold numbers
  refine ⟨generalized, instantiated, weakened, chosen, fun v => ?_⟩
  have all := (generalize _ _ _ _ generalized v).mpr fun d => holds _
  have some' := weaken _ _ _ _ weakened v (holds v)
  exact ⟨all, instantiate _ _ _ instantiated v all, some', choose _ _ _ chosen absent v some'⟩

theorem deriveFromOne_sound {a r : Sentence} (done : rule.deriveFromOne a = .ok (some r))
    (m : Structure D) (v : Valuation D) (first : rule.discharges = false → a.Holds m v) :
    r.Holds m v := by
  cases rule <;> simp only [deriveFromOne, bind_eq_ok_iff, map_eq_ok_iff, require_eq_ok,
    pure_eq_ok_iff, Option.some.injEq, reduceCtorEq, exists_eq_right, Prod.exists,
    Sentence.operands?_eq_some, Sentence.negated?_eq_some] at done
  all_goals have holds := first rfl
  case doubleNegationElimination =>
    rcases done with ⟨s, rfl, rfl⟩
    exact not_not.mp holds
  case doubleNegationIntroduction =>
    subst done
    exact fun refuted => refuted holds
  case simplification1 | simplification =>
    rcases done with ⟨l, r, rfl, rfl⟩
    exact holds.1
  case simplification2 =>
    rcases done with ⟨l, r, rfl, rfl⟩
    exact holds.2

theorem deriveFromTwo_sound {a b r : Sentence} (done : rule.deriveFromTwo a b = .ok (some r))
    (m : Structure D) (v : Valuation D) (first : rule.discharges = false → a.Holds m v)
    (second : (rule.discharges = true → a.Holds m v) → b.Holds m v) : r.Holds m v := by
  cases rule <;> simp only [deriveFromTwo, bind_eq_ok_iff, require_eq_ok, ensure_eq_ok,
    pure_eq_ok_iff, Option.some.injEq, reduceCtorEq, Prod.exists, Sentence.operands?_eq_some,
    Sentence.negated?_eq_some, beq_iff_eq, Bool.and_eq_true] at done
  case deductionTheorem =>
    subst done
    exact fun holds => second fun _ => holds
  all_goals
    have holdsA := first rfl
    have holdsB := second (by intro discharged; cases discharged)
  case modusPonens =>
    rcases done with ⟨l, r, rfl, _, rfl, rfl⟩
    exact holdsA holdsB
  case modusTollens =>
    rcases done with ⟨l, r, rfl, s, rfl, _, rfl, rfl⟩
    exact fun holdsL => holdsB (holdsA holdsL)
  case adjunction =>
    subst done
    exact ⟨holdsA, holdsB⟩
  case addition =>
    subst done
    exact Or.inl holdsA
  case disjunctiveSyllogism1 | disjunctiveSyllogism =>
    rcases done with ⟨l, r, rfl, s, rfl, _, rfl, rfl⟩
    exact holdsA.resolve_left holdsB
  case disjunctiveSyllogism2 =>
    rcases done with ⟨l, r, rfl, s, rfl, _, rfl, rfl⟩
    exact holdsA.resolve_right holdsB
  case biconditionalIntroduction =>
    rcases done with ⟨l, r, rfl, l', r', rfl, _, ⟨rfl, rfl⟩, rfl⟩
    exact ⟨holdsA, holdsB⟩
  case biconditionalElimination1 | biconditionalElimination =>
    rcases done with ⟨l, r, rfl, _, rfl, rfl⟩
    exact holdsA.mp holdsB
  case biconditionalElimination2 =>
    rcases done with ⟨l, r, rfl, _, rfl, rfl⟩
    exact holdsA.mpr holdsB
  case biconditionalNeg1 | biconditionalNeg =>
    rcases done with ⟨l, r, rfl, s, rfl, _, rfl, rfl⟩
    exact fun holdsR => holdsB (holdsA.mpr holdsR)
  case biconditionalNeg2 =>
    rcases done with ⟨l, r, rfl, s, rfl, _, rfl, rfl⟩
    exact fun holdsL => holdsB (holdsA.mp holdsL)

theorem deriveFromThree_sound {a b c r : Sentence}
    (done : rule.deriveFromThree a b c = .ok (some r)) (m : Structure D) (v : Valuation D)
    (first : rule.discharges = false → a.Holds m v)
    (second : (rule.discharges = true → a.Holds m v) → b.Holds m v)
    (third : (rule.discharges = true → a.Holds m v) → c.Holds m v) : r.Holds m v := by
  cases rule <;> simp only [deriveFromThree, bind_eq_ok_iff, require_eq_ok, ensure_eq_ok,
    pure_eq_ok_iff, Option.some.injEq, reduceCtorEq, Prod.exists, Sentence.operands?_eq_some,
    Sentence.negated?_eq_some, beq_iff_eq, Bool.and_eq_true] at done
  case reductioAdAbsurdum =>
    rcases done with ⟨s, rfl, _, rfl, rfl⟩
    exact fun holds => third (fun _ => holds) (second fun _ => holds)
  all_goals
    have holdsA := first rfl
    have holdsB := second (by intro discharged; cases discharged)
    have holdsC := third (by intro discharged; cases discharged)
  case caseAnalysis =>
    rcases done with ⟨l₁, r₁, rfl, l₂, r₂, rfl, l, r, rfl, _, rfl, _, ⟨rfl, rfl⟩, rfl⟩
    exact holdsC.elim holdsA holdsB
  case constructiveDilemma =>
    rcases done with ⟨l₁, r₁, rfl, l₂, r₂, rfl, l, r, rfl, _, ⟨rfl, rfl⟩, rfl⟩
    exact holdsC.imp holdsA holdsB

/-- Every antecedent holds; where the rule discharges the first one, it may be assumed for that. -/
def Supported (rule : Rule) (m : Structure D) (v : Valuation D) (antecedents : List Sentence) :
    Prop :=
  ∀ a ∈ antecedents,
    (rule.discharges = true → ∀ first ∈ antecedents.head?, first.Holds m v) → a.Holds m v

theorem apply_sound {antecedents : List Sentence} {arguments : List Term} {r : Sentence}
    (done : rule.apply antecedents arguments = .ok (some r))
    (sameValuation : rule.changesValuation = false) (m : Structure D) (v : Valuation D)
    (supported : rule.Supported m v antecedents) : r.Holds m v := by
  have first {a : Sentence} {rest : List Sentence} (shape : antecedents = a :: rest)
      (keeps : rule.discharges = false) : a.Holds m v :=
    supported a (by simp [shape]) (by simp [keeps])
  have later {a b : Sentence} {rest : List Sentence} (shape : antecedents = a :: rest)
      (member : b ∈ rest) (assumed : rule.discharges = true → a.Holds m v) : b.Holds m v :=
    supported b (by simp [shape, member]) (by simpa [shape] using assumed)
  cases concludes_of_apply done with
  | generalization q same generalized =>
    cases q with
    | universal => simp [same, generalization, changesValuation] at sameValuation
    | existential =>
      subst same
      exact existential_generalize_sound generalized m v (first rfl rfl)
  | instantiation q same instantiated =>
    cases q with
    | universal =>
      subst same
      exact universal_instantiate_sound instantiated m v (first rfl rfl)
    | existential => simp [same, instantiation, changesValuation] at sameValuation
  | one derived => exact deriveFromOne_sound derived m v (first rfl)
  | two derived => exact deriveFromTwo_sound derived m v (first rfl) (later rfl (by simp))
  | three derived =>
    exact deriveFromThree_sound derived m v (first rfl) (later rfl (by simp)) (later rfl (by simp))

end ProofDesk.Deduction.Rule
