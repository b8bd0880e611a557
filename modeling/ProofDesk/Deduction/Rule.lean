import ProofDesk.Logic.Substitution
import ProofDesk.Text.Number

namespace ProofDesk.Deduction

open Logic (Symbol Term Sentence Connective Quantifier Capture)

inductive Rule where
  | premise
  | hypothesis
  | reductioAdAbsurdum
  | doubleNegationElimination
  | doubleNegationIntroduction
  | deductionTheorem
  | modusPonens
  | modusTollens
  | adjunction
  | simplification1
  | simplification2
  | simplification
  | addition
  | caseAnalysis
  | disjunctiveSyllogism1
  | disjunctiveSyllogism2
  | disjunctiveSyllogism
  | constructiveDilemma
  | biconditionalIntroduction
  | biconditionalElimination1
  | biconditionalElimination2
  | biconditionalElimination
  | biconditionalNeg1
  | biconditionalNeg2
  | biconditionalNeg
  | universalGeneralization
  | universalInstantiation
  | existentialGeneralization
  | existentialInstantiation
  deriving DecidableEq, Repr

namespace Rule

def all : List Rule := [
  premise, hypothesis, reductioAdAbsurdum, doubleNegationElimination, doubleNegationIntroduction,
  deductionTheorem, modusPonens, modusTollens, adjunction, simplification1, simplification2,
  simplification, addition, caseAnalysis, disjunctiveSyllogism1, disjunctiveSyllogism2,
  disjunctiveSyllogism, constructiveDilemma, biconditionalIntroduction, biconditionalElimination1,
  biconditionalElimination2, biconditionalElimination, biconditionalNeg1, biconditionalNeg2,
  biconditionalNeg, universalGeneralization, universalInstantiation, existentialGeneralization,
  existentialInstantiation]

def name : Rule → Text
  | premise => "premise"
  | hypothesis => "hypothesis"
  | reductioAdAbsurdum => "reductio_ad_absurdum"
  | doubleNegationElimination => "double_negation_elimination"
  | doubleNegationIntroduction => "double_negation_introduction"
  | deductionTheorem => "deduction_theorem"
  | modusPonens => "modus_ponens"
  | modusTollens => "modus_tollens"
  | adjunction => "adjunction"
  | simplification1 => "simplification1"
  | simplification2 => "simplification2"
  | simplification => "simplification"
  | addition => "addition"
  | caseAnalysis => "case_analysis"
  | disjunctiveSyllogism1 => "disjunctive_syllogism1"
  | disjunctiveSyllogism2 => "disjunctive_syllogism2"
  | disjunctiveSyllogism => "disjunctive_syllogism"
  | constructiveDilemma => "constructive_dilemma"
  | biconditionalIntroduction => "biconditional_introduction"
  | biconditionalElimination1 => "biconditional_elimination1"
  | biconditionalElimination2 => "biconditional_elimination2"
  | biconditionalElimination => "biconditional_elimination"
  | biconditionalNeg1 => "biconditional_neg1"
  | biconditionalNeg2 => "biconditional_neg2"
  | biconditionalNeg => "biconditional_neg"
  | universalGeneralization => "universal_generalization"
  | universalInstantiation => "universal_instantiation"
  | existentialGeneralization => "existential_generalization"
  | existentialInstantiation => "existential_instantiation"

def isAssumption : Rule → Bool
  | premise | hypothesis => true
  | _ => false

def arity : Rule → Nat × Nat
  | premise | hypothesis => (0, 0)
  | doubleNegationElimination | doubleNegationIntroduction => (1, 0)
  | simplification1 | simplification2 | simplification => (1, 0)
  | universalGeneralization | existentialGeneralization => (1, 2)
  | universalInstantiation | existentialInstantiation => (1, 1)
  | reductioAdAbsurdum | caseAnalysis | constructiveDilemma => (3, 0)
  | _ => (2, 0)

end Rule

inductive Condition where
  | thirdNegation
  | thirdNegatesSecond
  | doubleNegation
  | firstImplication
  | secondImplication
  | secondIsPremise
  | secondNegation
  | secondNegatesConclusion
  | conjunction
  | thirdDisjunction
  | sameConclusion
  | disjunctionOfPremises
  | firstDisjunction
  | secondNegatesLeftDisjunct
  | secondNegatesRightDisjunct
  | converse
  | firstBiconditional
  | secondIsLeft
  | secondIsRight
  | secondNegatesLeft
  | secondNegatesRight
  | generalizedSymbol
  | newVariable
  | newVariableNotFree
  | quantified (q : Quantifier)
  deriving DecidableEq, Repr

def Condition.failure : Condition → Text
  | thirdNegation => "third antecedent is not a negation"
  | thirdNegatesSecond => "third antecedent does not negate the second"
  | doubleNegation => "antecedent is not a double negation"
  | firstImplication => "first antecedent is not an implication"
  | secondImplication => "second antecedent is not an implication"
  | secondIsPremise => "second antecedent does not match the premise"
  | secondNegation => "second antecedent is not a negation"
  | secondNegatesConclusion => "second antecedent does not negate the conclusion"
  | conjunction => "antecedent is not a conjunction"
  | thirdDisjunction => "third antecedent is not a disjunction"
  | sameConclusion => "implications have different conclusions"
  | disjunctionOfPremises => "disjunction does not match the premises"
  | firstDisjunction => "first antecedent is not a disjunction"
  | secondNegatesLeftDisjunct => "second antecedent does not negate the left disjunct"
  | secondNegatesRightDisjunct => "second antecedent does not negate the right disjunct"
  | converse => "implications are not converse"
  | firstBiconditional => "first antecedent is not a biconditional"
  | secondIsLeft => "second antecedent does not match the left side"
  | secondIsRight => "second antecedent does not match the right side"
  | secondNegatesLeft => "second antecedent does not negate the left side"
  | secondNegatesRight => "second antecedent does not negate the right side"
  | generalizedSymbol => "generalized term is not a symbol"
  | newVariable => "new term is not a variable"
  | newVariableNotFree => "new variable already occurs free"
  | quantified .universal => "antecedent is not universally quantified"
  | quantified .existential => "antecedent is not existentially quantified"

inductive RuleError where
  | unknownRule (name : Text)
  | arity (rule : Rule)
  | condition (rule : Rule) (failed : Condition)
  | capture (c : Capture)
  deriving DecidableEq

def RuleError.message : RuleError → Text
  | unknownRule name => "unknown rule " ++ name
  | arity rule =>
    rule.name ++ " expects " ++ Text.ofNat rule.arity.1 ++ " antecedents and " ++
      Text.ofNat rule.arity.2 ++ " arguments"
  | condition rule failed => rule.name ++ ": " ++ failed.failure
  | capture c => c.message

namespace Rule

def ofName? (s : Text) : Except RuleError Rule :=
  match all.find? fun rule => rule.name == s with
  | some rule => .ok rule
  | none => .error (.unknownRule s)

def require {α : Type} (rule : Rule) (needed : Condition) : Option α → Except RuleError α
  | some a => .ok a
  | none => .error (.condition rule needed)

def ensure (rule : Rule) (needed : Condition) (met : Bool) : Except RuleError Unit :=
  if met then .ok () else .error (.condition rule needed)

/-- Replace a symbol by a variable that does not occur free and bind the variable. -/
def generalize (rule : Rule) (q : Quantifier) (s : Sentence) (old new : Term) :
    Except RuleError Sentence := do
  let c ← rule.require .generalizedSymbol (match old with
    | .const c => some c
    | .var c => some c
    | .app _ _ => none)
  let x ← rule.require .newVariable (match new with
    | .var x => some x
    | _ => none)
  rule.ensure .newVariableNotFree (c == x || !s.isFree x)
  return .quantified q x (← (s.substitute c new).mapError .capture)

/-- Take a quantifier away and replace the bound variable by a term. -/
def instantiate (rule : Rule) (q : Quantifier) (s : Sentence) (t : Term) :
    Except RuleError Sentence := do
  let (x, body) ← rule.require (.quantified q) (s.body? q)
  (body.substitute x t).mapError .capture

def deriveFromOne (rule : Rule) (a : Sentence) : Except RuleError (Option Sentence) := do
  match rule with
  | doubleNegationElimination => do
    let s ← rule.require .doubleNegation a.negated?
    some <$> rule.require .doubleNegation s.negated?
  | doubleNegationIntroduction => return some (.negation (.negation a))
  | simplification1 | simplification =>
    return some (← rule.require .conjunction (a.operands? .conjunction)).1
  | simplification2 => return some (← rule.require .conjunction (a.operands? .conjunction)).2
  | _ => .error (.arity rule)

def deriveFromTwo (rule : Rule) (a b : Sentence) : Except RuleError (Option Sentence) := do
  match rule with
  | deductionTheorem => return some (.binary .implication a b)
  | modusPonens => do
    let (l, r) ← rule.require .firstImplication (a.operands? .implication)
    rule.ensure .secondIsPremise (l == b)
    return some r
  | modusTollens => do
    let (l, r) ← rule.require .firstImplication (a.operands? .implication)
    let s ← rule.require .secondNegation b.negated?
    rule.ensure .secondNegatesConclusion (s == r)
    return some (.negation l)
  | adjunction => return some (.binary .conjunction a b)
  | addition => return some (.binary .disjunction a b)
  | disjunctiveSyllogism1 | disjunctiveSyllogism => do
    let (l, r) ← rule.require .firstDisjunction (a.operands? .disjunction)
    let s ← rule.require .secondNegation b.negated?
    rule.ensure .secondNegatesLeftDisjunct (s == l)
    return some r
  | disjunctiveSyllogism2 => do
    let (l, r) ← rule.require .firstDisjunction (a.operands? .disjunction)
    let s ← rule.require .secondNegation b.negated?
    rule.ensure .secondNegatesRightDisjunct (s == r)
    return some l
  | biconditionalIntroduction => do
    let (l, r) ← rule.require .firstImplication (a.operands? .implication)
    let (l', r') ← rule.require .secondImplication (b.operands? .implication)
    rule.ensure .converse (l == r' && r == l')
    return some (.binary .equivalence l r)
  | biconditionalElimination1 | biconditionalElimination => do
    let (l, r) ← rule.require .firstBiconditional (a.operands? .equivalence)
    rule.ensure .secondIsLeft (l == b)
    return some r
  | biconditionalElimination2 => do
    let (l, r) ← rule.require .firstBiconditional (a.operands? .equivalence)
    rule.ensure .secondIsRight (r == b)
    return some l
  | biconditionalNeg1 | biconditionalNeg => do
    let (l, r) ← rule.require .firstBiconditional (a.operands? .equivalence)
    let s ← rule.require .secondNegation b.negated?
    rule.ensure .secondNegatesLeft (s == l)
    return some (.negation r)
  | biconditionalNeg2 => do
    let (l, r) ← rule.require .firstBiconditional (a.operands? .equivalence)
    let s ← rule.require .secondNegation b.negated?
    rule.ensure .secondNegatesRight (s == r)
    return some (.negation l)
  | _ => .error (.arity rule)

def deriveFromThree (rule : Rule) (a b c : Sentence) : Except RuleError (Option Sentence) := do
  match rule with
  | reductioAdAbsurdum => do
    let s ← rule.require .thirdNegation c.negated?
    rule.ensure .thirdNegatesSecond (s == b)
    return some (.negation a)
  | caseAnalysis => do
    let (l₁, r₁) ← rule.require .firstImplication (a.operands? .implication)
    let (l₂, r₂) ← rule.require .secondImplication (b.operands? .implication)
    let (l, r) ← rule.require .thirdDisjunction (c.operands? .disjunction)
    rule.ensure .sameConclusion (r₁ == r₂)
    rule.ensure .disjunctionOfPremises (l₁ == l && l₂ == r)
    return some r₁
  | constructiveDilemma => do
    let (l₁, r₁) ← rule.require .firstImplication (a.operands? .implication)
    let (l₂, r₂) ← rule.require .secondImplication (b.operands? .implication)
    let (l, r) ← rule.require .thirdDisjunction (c.operands? .disjunction)
    rule.ensure .disjunctionOfPremises (l₁ == l && l₂ == r)
    return some (.binary .disjunction r₁ r₂)
  | _ => .error (.arity rule)

/-- The conclusion of a rule; an assumption has none. -/
def apply (rule : Rule) (antecedents : List Sentence) (arguments : List Term) :
    Except RuleError (Option Sentence) :=
  match rule, antecedents, arguments with
  | premise, [], [] => .ok none
  | hypothesis, [], [] => .ok none
  | universalGeneralization, [a], [old, new] => some <$> rule.generalize .universal a old new
  | existentialGeneralization, [a], [old, new] => some <$> rule.generalize .existential a old new
  | universalInstantiation, [a], [t] => some <$> rule.instantiate .universal a t
  | existentialInstantiation, [a], [t] => some <$> rule.instantiate .existential a t
  | _, [a], [] => rule.deriveFromOne a
  | _, [a, b], [] => rule.deriveFromTwo a b
  | _, [a, b, c], [] => rule.deriveFromThree a b c
  | _, _, _ => .error (.arity rule)

end Rule
end ProofDesk.Deduction
