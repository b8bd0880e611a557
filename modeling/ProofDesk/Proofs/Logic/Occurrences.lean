import ProofDesk.Logic.Substitution
import ProofDesk.Proofs.Outcome

/-!
Where symbols occur in a sentence.  The atoms of a sentence are its predicates with their arguments;
each comes with the symbols that are bound above it.  A symbol is free in an atom if it occurs there
and is not bound above.  The main statement says what substitution does to the atoms: it fails exactly
if a free occurrence lies below a quantifier that captures a symbol of the term, and else it replaces
the free occurrences and nothing else.
-/

namespace ProofDesk.Logic

/-- A predicate with its arguments, and the symbols bound above it from the outside to the inside. -/
structure Atom where
  binders : List Symbol
  predicate : Symbol
  arguments : Arguments
  deriving DecidableEq

namespace Atom

variable {a : Atom} {x y z : Symbol} {new : Term}

def below (y : Symbol) (a : Atom) : Atom := { a with binders := y :: a.binders }

def Free (x : Symbol) (a : Atom) : Prop := x ∉ a.binders ∧ a.arguments.mentions x = true

def Binds (new : Term) (a : Atom) : Prop := ∃ y ∈ a.binders, new.mentions y = true

instance : Decidable (a.Free x) := inferInstanceAs (Decidable (_ ∧ _))

instance : Decidable (a.Binds new) := inferInstanceAs (Decidable (∃ y ∈ a.binders, _))

/-- The atom with a term in place of a symbol, unless the symbol is bound above. -/
def replace (x : Symbol) (new : Term) (a : Atom) : Atom :=
  if x ∈ a.binders then a else { a with arguments := a.arguments.substitute x new }

theorem free_below : (a.below y).Free x ↔ x ≠ y ∧ a.Free x := by
  simp [Free, below, and_assoc]

theorem binds_below : (a.below y).Binds new ↔ new.mentions y = true ∨ a.Binds new := by
  simp [Binds, below]

theorem replace_below_self : (a.below x).replace x new = a.below x := by
  simp [replace, below]

theorem replace_below (other : x ≠ y) : (a.below y).replace x new = (a.replace x new).below y := by
  unfold replace
  by_cases bound : x ∈ a.binders <;> simp [below, bound, other]

end Atom

namespace Sentence

def atoms : Sentence → List Atom
  | truth _ => []
  | proposition _ => []
  | predicate p ts => [⟨[], p, ts⟩]
  | negation s => s.atoms
  | binary _ l r => l.atoms ++ r.atoms
  | quantified _ y s => s.atoms.map (Atom.below y)

/-- Two sentences that differ at most in the arguments of predicates. -/
inductive SameShape : Sentence → Sentence → Prop where
  | truth (b : Bool) : SameShape (.truth b) (.truth b)
  | proposition (p : Symbol) : SameShape (.proposition p) (.proposition p)
  | predicate (p : Symbol) (ts us : Arguments) : SameShape (.predicate p ts) (.predicate p us)
  | negation {s r : Sentence} (inside : SameShape s r) : SameShape (.negation s) (.negation r)
  | binary (c : Connective) {l l' r r' : Sentence} (left : SameShape l l')
    (right : SameShape r r') : SameShape (.binary c l r) (.binary c l' r')
  | quantified (q : Quantifier) (y : Symbol) {s r : Sentence} (inside : SameShape s r) :
    SameShape (.quantified q y s) (.quantified q y r)

theorem SameShape.refl (s : Sentence) : SameShape s s := by
  induction s with
  | truth b => exact .truth b
  | proposition p => exact .proposition p
  | predicate p ts => exact .predicate p ts ts
  | negation s ih => exact .negation ih
  | binary c l r left right => exact .binary c left right
  | quantified q y s ih => exact .quantified q y ih

theorem isFree_iff {s : Sentence} {x : Symbol} : s.isFree x = true ↔ ∃ a ∈ s.atoms, a.Free x := by
  induction s with
  | truth b => simp [isFree, atoms]
  | proposition p => simp [isFree, atoms]
  | predicate p ts => simp [isFree, atoms, Atom.Free]
  | negation s ih => exact ih
  | binary c l r left right =>
    simp only [isFree, atoms, Bool.or_eq_true, List.mem_append, or_and_right, exists_or, left, right]
  | quantified q y s ih =>
    simp only [isFree, atoms, Bool.and_eq_true, bne_iff_ne, ih, List.mem_map,
      exists_exists_and_eq_and, Atom.free_below, ne_comm (a := y)]
    constructor
    · intro free
      rcases free with ⟨other, a, member, free⟩
      exact ⟨a, member, other, free⟩
    · intro free
      rcases free with ⟨a, member, other, free⟩
      exact ⟨other, a, member, free⟩

end Sentence

mutual

theorem mentions_substitute (x z : Symbol) (new : Term) : ∀ t : Term,
    (Term.substitute x new t).mentions z = true ↔
      (z ≠ x ∧ t.mentions z = true) ∨ (t.mentions x = true ∧ new.mentions z = true)
  | .const c => by
    by_cases same : c = x <;> grind [Term.substitute, Term.mentions]
  | .var y => by
    by_cases same : y = x <;> grind [Term.substitute, Term.mentions]
  | .app f ts => mentions_substituteAll x z new ts

theorem mentions_substituteAll (x z : Symbol) (new : Term) : ∀ ts : Arguments,
    (ts.substitute x new).mentions z = true ↔
      (z ≠ x ∧ ts.mentions z = true) ∨ (ts.mentions x = true ∧ new.mentions z = true)
  | .one t => mentions_substitute x z new t
  | .cons t ts => by
    have first := mentions_substitute x z new t
    have rest := mentions_substituteAll x z new ts
    simp only [Arguments.substitute, Arguments.mentions, Bool.or_eq_true, first, rest]
    rw [and_or_left, or_and_right, or_or_or_comm]

end

mutual

theorem substitute_of_not_mentioned {x : Symbol} (new : Term) : ∀ t : Term,
    t.mentions x = false → Term.substitute x new t = t
  | .const c, absent => by simp_all [Term.substitute, Term.mentions]
  | .var y, absent => by simp_all [Term.substitute, Term.mentions]
  | .app f ts, absent => by
    rw [Term.substitute, substituteAll_of_not_mentioned new ts absent]

theorem substituteAll_of_not_mentioned {x : Symbol} (new : Term) : ∀ ts : Arguments,
    ts.mentions x = false → ts.substitute x new = ts
  | .one t, absent => by rw [Arguments.substitute, substitute_of_not_mentioned new t absent]
  | .cons t ts, absent => by
    obtain ⟨first, rest⟩ := Bool.or_eq_false_iff.mp absent
    rw [Arguments.substitute, substitute_of_not_mentioned new t first,
      substituteAll_of_not_mentioned new ts rest]

end

namespace Atom

variable {a : Atom} {x z : Symbol} {new : Term}

@[simp]
theorem binders_replace : (a.replace x new).binders = a.binders := by
  unfold replace
  split <;> rfl

/-- What is free in an atom after a replacement: what was free there besides the symbol, and if the
symbol was, then the symbols of the term that are not bound above. -/
theorem free_replace : (a.replace x new).Free z ↔
    (z ≠ x ∧ a.Free z) ∨ (a.Free x ∧ z ∉ a.binders ∧ new.mentions z = true) := by
  rw [Free, binders_replace]
  by_cases bound : x ∈ a.binders
  · have kept : a.replace x new = a := if_pos bound
    rw [kept]
    constructor
    · intro free
      have other : z ≠ x := fun same => free.1 (same ▸ bound)
      exact Or.inl ⟨other, free⟩
    · intro free
      rcases free with ⟨-, free⟩ | ⟨⟨unbound, -⟩, -⟩
      · exact free
      · exact absurd bound unbound
  · have replaced : (a.replace x new).arguments = a.arguments.substitute x new := by
      rw [replace, if_neg bound]
    rw [replaced, mentions_substituteAll, Free, Free, and_or_left]
    simp only [bound, not_false_eq_true, true_and, and_left_comm]

end Atom

namespace Sentence

variable {s r : Sentence} {x : Symbol} {new : Term}

theorem substitute_of_not_free (absent : s.isFree x = false) : s.substitute x new = .ok s := by
  induction s with
  | truth b => rfl
  | proposition p => rfl
  | predicate p ts => rw [substitute, substituteAll_of_not_mentioned new ts absent]
  | negation s ih =>
    rw [substitute, ih absent]
    rfl
  | binary c l r left right =>
    obtain ⟨absentLeft, absentRight⟩ := Bool.or_eq_false_iff.mp absent
    rw [substitute, left absentLeft, right absentRight]
    rfl
  | quantified q y s ih =>
    rw [substitute]
    by_cases shadowed : y = x
    · rw [if_pos shadowed]
    · have inside : s.isFree x = false := by simpa [isFree, shadowed] using absent
      rw [if_neg shadowed, inside, Bool.and_false, if_neg Bool.false_ne_true, ih inside]
      rfl

/-- Some free occurrence of a symbol lies below a quantifier that binds a symbol of a term. -/
def Captures (x : Symbol) (new : Term) (s : Sentence) : Prop :=
  ∃ a ∈ s.atoms, a.Free x ∧ a.Binds new

theorem captures_quantified {q : Quantifier} {y : Symbol} :
    (quantified q y s).Captures x new ↔
      y ≠ x ∧ ((new.mentions y = true ∧ s.isFree x = true) ∨ s.Captures x new) := by
  simp only [Captures, atoms, List.mem_map, exists_exists_and_eq_and, Atom.free_below,
    Atom.binds_below, isFree_iff]
  constructor
  · intro captured
    rcases captured with ⟨a, member, ⟨other, free⟩, here | inside⟩
    · exact ⟨other.symm, Or.inl ⟨here, a, member, free⟩⟩
    · exact ⟨other.symm, Or.inr ⟨a, member, free, inside⟩⟩
  · intro captured
    rcases captured with ⟨other, ⟨here, a, member, free⟩ | ⟨a, member, free, inside⟩⟩
    · exact ⟨a, member, ⟨other.symm, free⟩, Or.inl here⟩
    · exact ⟨a, member, ⟨other.symm, free⟩, Or.inr inside⟩

theorem captures_binary {c : Connective} {l r : Sentence} :
    (binary c l r).Captures x new ↔ l.Captures x new ∨ r.Captures x new := by
  simp only [Captures, atoms, List.mem_append, or_and_right, exists_or]

/-- A substitution succeeds exactly if nothing is captured. -/
theorem exists_substitute_iff : (∃ r, s.substitute x new = .ok r) ↔ ¬s.Captures x new := by
  induction s with
  | truth b => simp [substitute, Captures, atoms]
  | proposition p => simp [substitute, Captures, atoms]
  | predicate p ts => simp [substitute, Captures, atoms, Atom.Binds]
  | negation s ih =>
    rw [show (negation s).Captures x new ↔ s.Captures x new from Iff.rfl, ← ih]
    simp [substitute]
  | binary c l r left right =>
    rw [captures_binary, not_or, ← left, ← right]
    simp [substitute]
  | quantified q y s ih =>
    rw [captures_quantified, substitute]
    by_cases shadowed : y = x
    · simp [shadowed]
    by_cases captured : (new.mentions y && s.isFree x) = true
    · have here : new.mentions y = true ∧ s.isFree x = true := by simpa using captured
      simp [shadowed, here]
    · have apart : ¬(new.mentions y = true ∧ s.isFree x = true) := by simpa using captured
      rw [if_neg shadowed, if_neg captured, not_and]
      simp only [ne_eq, shadowed, not_false_eq_true, forall_const, apart, false_or, ← ih]
      simp

theorem atoms_substitute (done : s.substitute x new = .ok r) :
    s.SameShape r ∧ r.atoms = s.atoms.map (Atom.replace x new) := by
  induction s generalizing r with
  | truth b =>
    cases done
    exact ⟨.truth b, rfl⟩
  | proposition p =>
    cases done
    exact ⟨.proposition p, rfl⟩
  | predicate p ts =>
    cases done
    exact ⟨.predicate p ts _, rfl⟩
  | negation s ih =>
    simp only [substitute, bind_eq_ok_iff, pure_eq_ok_iff] at done
    obtain ⟨s', inside, rfl⟩ := done
    exact ⟨.negation (ih inside).1, (ih inside).2⟩
  | binary c l r left right =>
    simp only [substitute, bind_eq_ok_iff, pure_eq_ok_iff] at done
    obtain ⟨l', first, r', second, rfl⟩ := done
    refine ⟨.binary c (left first).1 (right second).1, ?_⟩
    rw [atoms, atoms, List.map_append, (left first).2, (right second).2]
  | quantified q y s ih =>
    by_cases shadowed : y = x
    · rw [substitute, if_pos shadowed] at done
      cases done
      subst shadowed
      refine ⟨.refl _, ?_⟩
      rw [atoms, List.map_map]
      exact List.map_congr_left fun a _ => Atom.replace_below_self.symm
    by_cases captured : (new.mentions y && s.isFree x) = true
    · simp [substitute, shadowed, captured] at done
    simp only [substitute, if_neg shadowed, if_neg captured, bind_eq_ok_iff, pure_eq_ok_iff] at done
    obtain ⟨s', inside, rfl⟩ := done
    refine ⟨.quantified q y (ih inside).1, ?_⟩
    rw [atoms, atoms, (ih inside).2, List.map_map, List.map_map]
    exact List.map_congr_left fun a _ => (Atom.replace_below (Ne.symm shadowed)).symm

theorem isFree_substitute (done : s.substitute x new = .ok r) (z : Symbol) : r.isFree z = true ↔
    (z ≠ x ∧ s.isFree z = true) ∨ (s.isFree x = true ∧ new.mentions z = true) := by
  have uncaptured : ¬s.Captures x new := exists_substitute_iff.mp ⟨r, done⟩
  simp only [isFree_iff, (atoms_substitute done).2, List.mem_map, exists_exists_and_eq_and,
    Atom.free_replace]
  constructor
  · intro free
    rcases free with ⟨a, member, ⟨other, free⟩ | ⟨free, -, brought⟩⟩
    · exact Or.inl ⟨other, a, member, free⟩
    · exact Or.inr ⟨⟨a, member, free⟩, brought⟩
  · intro free
    rcases free with ⟨other, a, member, free⟩ | ⟨⟨a, member, free⟩, brought⟩
    · exact ⟨a, member, Or.inl ⟨other, free⟩⟩
    · refine ⟨a, member, Or.inr ⟨free, ?_, brought⟩⟩
      intro bound
      exact uncaptured ⟨a, member, free, z, bound, brought⟩

/-- Substitution fails exactly if a free occurrence lies below a quantifier that binds a symbol of the
term, and otherwise it touches the free occurrences and nothing else. -/
theorem substitute_touches_free (s : Sentence) (x : Symbol) (new : Term) :
    ((∃ c, s.substitute x new = .error c) ↔
      ∃ a ∈ s.atoms, a.Free x ∧ ∃ y ∈ a.binders, new.mentions y = true) ∧
    (s.isFree x = false → s.substitute x new = .ok s) ∧
    ∀ r, s.substitute x new = .ok r →
      (s.SameShape r ∧ r.atoms = s.atoms.map (Atom.replace x new)) ∧
      ∀ z, r.isFree z = true ↔
        (z ≠ x ∧ s.isFree z = true) ∨ (s.isFree x = true ∧ new.mentions z = true) := by
  refine ⟨?_, substitute_of_not_free, fun r done => ⟨atoms_substitute done, isFree_substitute done⟩⟩
  have succeeds : (∃ r, s.substitute x new = .ok r) ↔ ¬s.Captures x new := exists_substitute_iff
  cases result : s.substitute x new with
  | error c => simpa [result, Captures, Atom.Binds] using succeeds
  | ok r => simpa [result, Captures, Atom.Binds] using succeeds

/-- For all y, R of a term and y, and for some x, R of x and y. -/
def shadowing (relation x y : Symbol) (t : Term) : Sentence :=
  .quantified .universal y (.binary .conjunction (.predicate relation (.cons t (.one (.var y))))
    (.quantified .existential x (.predicate relation (.cons (.var x) (.one (.var y))))))

/-- The first x is free: a constant is put in its place, and a term with y would be captured there. -/
theorem substitute_touches_free_shadowing :
    let x : Symbol := ⟨"x", by decide⟩
    let y : Symbol := ⟨"y", by decide⟩
    let c : Symbol := ⟨"c", by decide⟩
    let s : Term → Sentence := shadowing ⟨"R", by decide⟩ x y
    (∃ e, (s (.var x)).substitute x (.app c (.one (.var y))) = .error e) ∧
      (s (.var x)).substitute x (.const c) = .ok (s (.const c)) ∧
      (s (.const c)).isFree c = true ∧ (s (.const c)).isFree x = false := by
  intro x y c s
  have captured : ∃ a ∈ (s (.var x)).atoms, a.Free x ∧
      ∃ z ∈ a.binders, (Term.app c (.one (.var y))).mentions z = true := by decide
  have done : (s (.var x)).substitute x (.const c) = .ok (s (.const c)) := rfl
  have brought : (s (.var x)).isFree x = true ∧ (Term.const c).mentions c = true := by decide
  have gone : ¬(Term.const c).mentions x = true := by decide
  obtain ⟨-, free⟩ := (substitute_touches_free _ _ _).2.2 _ done
  refine ⟨(substitute_touches_free _ _ _).1.mpr captured, done, ?_, ?_⟩
  · exact (free c).mpr (Or.inr brought)
  · rw [← Bool.not_eq_true, free x]
    intro kept
    rcases kept with ⟨other, -⟩ | ⟨-, mentioned⟩
    · exact other rfl
    · exact gone mentioned

end Sentence
end ProofDesk.Logic
