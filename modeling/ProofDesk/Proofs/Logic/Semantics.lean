import Mathlib.Logic.Function.Basic
import ProofDesk.Logic.Substitution
import ProofDesk.Proofs.Outcome

/-!
Truth of sentences in a first-order structure.  A valuation gives an element of the domain to every
name, so a constant and a variable of one name have one value, and a quantifier changes the value of
both below it.  The main statement is that substitution of a term is a change of the valuation.
-/

namespace ProofDesk.Logic

universe u

structure Structure (D : Type u) where
  function : Symbol → List D → D
  proposition : Symbol → Prop
  predicate : Symbol → List D → Prop

abbrev Valuation (D : Type u) := Symbol → D

variable {D : Type u}

mutual

def Term.value (m : Structure D) (v : Valuation D) : Term → D
  | .const c => v c
  | .var x => v x
  | .app f ts => m.function f (ts.values m v)

def Arguments.values (m : Structure D) (v : Valuation D) : Arguments → List D
  | .one t => [t.value m v]
  | .cons t ts => t.value m v :: ts.values m v

end

def Connective.Joins : Connective → Prop → Prop → Prop
  | conjunction, p, q => p ∧ q
  | disjunction, p, q => p ∨ q
  | implication, p, q => p → q
  | equivalence, p, q => p ↔ q

def Quantifier.Ranges : Quantifier → (D → Prop) → Prop
  | universal, p => ∀ d, p d
  | existential, p => ∃ d, p d

def Sentence.Holds (m : Structure D) : Sentence → Valuation D → Prop
  | truth b, _ => b = true
  | proposition p, _ => m.proposition p
  | predicate p ts, v => m.predicate p (ts.values m v)
  | negation s, v => ¬ s.Holds m v
  | binary c l r, v => c.Joins (l.Holds m v) (r.Holds m v)
  | quantified q x s, v => q.Ranges fun d => s.Holds m (Function.update v x d)

theorem ranges_congr {q : Quantifier} {p r : D → Prop} (same : ∀ d, p d ↔ r d) :
    q.Ranges p ↔ q.Ranges r := by
  have : p = r := funext fun d => propext (same d)
  rw [this]

theorem joins_congr {c : Connective} {p q p' q' : Prop} (left : p ↔ p') (right : q ↔ q') :
    c.Joins p q ↔ c.Joins p' q' := by
  rw [propext left, propext right]

mutual

theorem value_congr (m : Structure D) {v w : Valuation D} : ∀ t : Term,
    (∀ x, t.mentions x = true → v x = w x) → t.value m v = t.value m w
  | .const c, agree => agree c (by simp [Term.mentions])
  | .var x, agree => agree x (by simp [Term.mentions])
  | .app f ts, agree => by
    have arguments := values_congr m ts fun x occurs => agree x (by simpa [Term.mentions])
    simp only [Term.value, arguments]

theorem values_congr (m : Structure D) {v w : Valuation D} : ∀ ts : Arguments,
    (∀ x, ts.mentions x = true → v x = w x) → ts.values m v = ts.values m w
  | .one t, agree => by
    have first := value_congr m t fun x occurs => agree x (by simpa [Arguments.mentions])
    simp only [Arguments.values, first]
  | .cons t ts, agree => by
    have first := value_congr m t fun x occurs => agree x (by simp [Arguments.mentions, occurs])
    have rest := values_congr m ts fun x occurs => agree x (by simp [Arguments.mentions, occurs])
    simp only [Arguments.values, first, rest]

end

theorem holds_congr (m : Structure D) (s : Sentence) {v w : Valuation D}
    (agree : ∀ x, s.isFree x = true → v x = w x) : s.Holds m v ↔ s.Holds m w := by
  induction s generalizing v w with
  | truth b => exact Iff.rfl
  | proposition p => exact Iff.rfl
  | predicate p ts =>
    have arguments := values_congr m ts fun x occurs => agree x occurs
    simp only [Sentence.Holds, arguments]
  | negation s ih => exact not_congr (ih agree)
  | binary c l r ihl ihr =>
    refine joins_congr (ihl fun x free => agree x ?_) (ihr fun x free => agree x ?_)
    · simp [Sentence.isFree, free]
    · simp [Sentence.isFree, free]
  | quantified q y s ih =>
    refine ranges_congr fun d => ih fun x free => ?_
    by_cases same : x = y
    · rw [same, Function.update_self, Function.update_self]
    · have outside := agree x (by simp [Sentence.isFree, free, Ne.symm same])
      rw [Function.update_of_ne same, Function.update_of_ne same, outside]

theorem holds_update_of_not_free (m : Structure D) {s : Sentence} {x : Symbol}
    (absent : s.isFree x = false) (v : Valuation D) (d : D) :
    s.Holds m (Function.update v x d) ↔ s.Holds m v := by
  apply holds_congr m s
  intro y free
  have other : y ≠ x := by
    rintro rfl
    simp [absent] at free
  exact Function.update_of_ne other d v

theorem value_update_of_not_mentioned (m : Structure D) {t : Term} {x : Symbol}
    (absent : t.mentions x = false) (v : Valuation D) (d : D) :
    t.value m (Function.update v x d) = t.value m v := by
  apply value_congr m t
  intro y occurs
  have other : y ≠ x := by
    rintro rfl
    simp [absent] at occurs
  exact Function.update_of_ne other d v

mutual

theorem value_substitute (m : Structure D) (v : Valuation D) (x : Symbol) (new : Term) :
    ∀ t : Term,
      (Term.substitute x new t).value m v = t.value m (Function.update v x (new.value m v))
  | .const c => by
    by_cases same : c = x
    · simp [Term.substitute, Term.value, same]
    · simp [Term.substitute, Term.value, same]
  | .var y => by
    by_cases same : y = x
    · simp [Term.substitute, Term.value, same]
    · simp [Term.substitute, Term.value, same]
  | .app f ts => by
    simp only [Term.substitute, Term.value, values_substitute m v x new ts]

theorem values_substitute (m : Structure D) (v : Valuation D) (x : Symbol) (new : Term) :
    ∀ ts : Arguments,
      (ts.substitute x new).values m v = ts.values m (Function.update v x (new.value m v))
  | .one t => by
    simp only [Arguments.substitute, Arguments.values, value_substitute m v x new t]
  | .cons t ts => by
    simp only [Arguments.substitute, Arguments.values, value_substitute m v x new t,
      values_substitute m v x new ts]

end

/-- Where a substitution succeeds, the sentence it gives says under a valuation what the given
sentence says with the symbol set to the value of the term. -/
theorem holds_substitute (m : Structure D) {s r : Sentence} {x : Symbol} {new : Term}
    (done : s.substitute x new = .ok r) (v : Valuation D) :
    r.Holds m v ↔ s.Holds m (Function.update v x (new.value m v)) := by
  induction s generalizing r v with
  | truth b =>
    cases done
    exact Iff.rfl
  | proposition p =>
    cases done
    exact Iff.rfl
  | predicate p ts =>
    cases done
    simp only [Sentence.Holds, values_substitute]
  | negation s ih =>
    simp only [Sentence.substitute, bind_eq_ok_iff, pure_eq_ok_iff] at done
    rcases done with ⟨s', inner, rfl⟩
    exact not_congr (ih inner v)
  | binary c l r ihl ihr =>
    simp only [Sentence.substitute, bind_eq_ok_iff, pure_eq_ok_iff] at done
    rcases done with ⟨l', left, r', right, rfl⟩
    exact joins_congr (ihl left v) (ihr right v)
  | quantified q y s ih =>
    by_cases shadowed : y = x
    · simp only [Sentence.substitute, if_pos shadowed, Except.ok.injEq] at done
      subst done shadowed
      apply ranges_congr
      intro d
      rw [Function.update_idem]
    by_cases captured : (new.mentions y && s.isFree x) = true
    · simp [Sentence.substitute, shadowed, captured] at done
    simp only [Sentence.substitute, if_neg shadowed, if_neg captured, bind_eq_ok_iff,
      pure_eq_ok_iff] at done
    rcases done with ⟨s', inner, rfl⟩
    apply ranges_congr
    intro d
    rw [ih inner, Function.update_comm (Ne.symm shadowed)]
    -- either the term does not see the binder, or there is nothing to replace below it
    rw [Bool.and_eq_true, not_and_or, Bool.not_eq_true, Bool.not_eq_true] at captured
    rcases captured with unseen | absent
    · rw [value_update_of_not_mentioned m unseen]
    · rw [holds_update_of_not_free m absent, holds_update_of_not_free m absent]

end ProofDesk.Logic
