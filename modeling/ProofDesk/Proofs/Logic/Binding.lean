import ProofDesk.Proofs.Logic.Composition
import ProofDesk.Proofs.Logic.RoundTrip

namespace ProofDesk.Logic

variable {bound before after : List Text} {x y z : Symbol} {t new : Term} {ts : Arguments}

theorem Symbol.name_injective : Function.Injective Symbol.name := fun _ _ => Symbol.ext

/-- The variable of a name that is bound, and the constant of one that is not. -/
def Symbol.leaf (bound : List Text) (x : Symbol) : Term := (Term.const x).reclassify bound

theorem Symbol.leaf_of_mem (member : x.name ∈ bound) : x.leaf bound = .var x := if_pos member

theorem Symbol.leaf_of_not_mem (apart : x.name ∉ bound) : x.leaf bound = .const x := if_neg apart

theorem Symbol.leaf_names (bound : List Text) (x : Symbol) : (x.leaf bound).Names x := by
  unfold Symbol.leaf Term.reclassify
  split
  · exact Or.inr rfl
  · exact Or.inl rfl

theorem Symbol.leaf_congr (same : x.name ∈ before ↔ x.name ∈ after) :
    x.leaf before = x.leaf after := by
  simp only [Symbol.leaf, Term.reclassify, same]

theorem Term.Names.wellScoped_iff (names : t.Names x) : t.WellScoped bound ↔ t = x.leaf bound := by
  by_cases member : x.name ∈ bound <;> rcases names with rfl | rfl <;>
    simp [Term.WellScoped, Symbol.leaf_of_mem, Symbol.leaf_of_not_mem, member]

theorem Term.Names.wellScoped_congr (names : t.Names x) (placed : t.WellScoped before)
    (same : x.name ∈ before ↔ x.name ∈ after) : t.WellScoped after := by
  rw [names.wellScoped_iff] at *
  rw [placed, Symbol.leaf_congr same]

mutual

theorem Term.WellScoped.congr : ∀ {t : Term}, t.WellScoped before →
    (∀ y, t.mentions y = true → (y.name ∈ before ↔ y.name ∈ after)) → t.WellScoped after
  | .const c, placed, same =>
    Term.Names.wellScoped_congr (Or.inl rfl) placed (same c (by simp [Term.mentions]))
  | .var c, placed, same =>
    Term.Names.wellScoped_congr (Or.inr rfl) placed (same c (by simp [Term.mentions]))
  | .app _ _, placed, same => Arguments.WellScoped.congr placed same

theorem Arguments.WellScoped.congr : ∀ {ts : Arguments}, ts.WellScoped before →
    (∀ y, ts.mentions y = true → (y.name ∈ before ↔ y.name ∈ after)) → ts.WellScoped after
  | .one _, placed, same => Term.WellScoped.congr placed same
  | .cons t ts, placed, same => by
    refine ⟨Term.WellScoped.congr placed.1 fun y mentioned => same y ?_,
      Arguments.WellScoped.congr placed.2 fun y mentioned => same y ?_⟩
    · simp [Arguments.mentions, mentioned]
    · simp [Arguments.mentions, mentioned]

end

theorem Term.Names.wellScoped_substitute (names : t.Names y) (placed : t.WellScoped before)
    (others : y ≠ x → (y.name ∈ before ↔ y.name ∈ after)) (brought : y = x → new.WellScoped after) :
    (Term.substitute x new t).WellScoped after := by
  by_cases here : y = x
  · subst here
    rw [names.substitute_self]
    exact brought rfl
  · rw [names.substitute_other here]
    exact names.wellScoped_congr placed (others here)

mutual

theorem Term.WellScoped.substitute : ∀ {t : Term}, t.WellScoped before →
    (∀ y, t.mentions y = true → y ≠ x → (y.name ∈ before ↔ y.name ∈ after)) →
    (t.mentions x = true → new.WellScoped after) → (Term.substitute x new t).WellScoped after
  | .const c, placed, others, brought =>
    Term.Names.wellScoped_substitute (Or.inl rfl) placed (others c (by simp [Term.mentions]))
      fun same => brought (by simp [Term.mentions, same])
  | .var c, placed, others, brought =>
    Term.Names.wellScoped_substitute (Or.inr rfl) placed (others c (by simp [Term.mentions]))
      fun same => brought (by simp [Term.mentions, same])
  | .app _ _, placed, others, brought =>
    Arguments.WellScoped.substitute placed others brought

theorem Arguments.WellScoped.substitute : ∀ {ts : Arguments}, ts.WellScoped before →
    (∀ y, ts.mentions y = true → y ≠ x → (y.name ∈ before ↔ y.name ∈ after)) →
    (ts.mentions x = true → new.WellScoped after) → (ts.substitute x new).WellScoped after
  | .one _, placed, others, brought => Term.WellScoped.substitute placed others brought
  | .cons t ts, placed, others, brought => by
    constructor
    · refine Term.WellScoped.substitute placed.1 (fun y mentioned => others y ?_)
        fun mentioned => brought ?_
      · simp [Arguments.mentions, mentioned]
      · simp [Arguments.mentions, mentioned]
    · refine Arguments.WellScoped.substitute placed.2 (fun y mentioned => others y ?_)
        fun mentioned => brought ?_
      · simp [Arguments.mentions, mentioned]
      · simp [Arguments.mentions, mentioned]

end

theorem Term.Names.substitute_restores (names : t.Names y) (placed : t.WellScoped bound)
    (named : new.Names z) (fresh : z = x ∨ t.mentions z = false) :
    Term.substitute z (x.leaf bound) (Term.substitute x new t) = t := by
  by_cases here : y = x
  · subst here
    rw [names.substitute_self, named.substitute_self]
    exact (names.wellScoped_iff.mp placed).symm
  · have apart : y ≠ z := by
      rcases fresh with rfl | unmentioned
      · exact here
      · rwa [← Bool.not_eq_true, names.mentions] at unmentioned
    rw [names.substitute_other here, names.substitute_other apart]

mutual

theorem Term.substitute_restores (named : new.Names z) : ∀ t : Term, t.WellScoped bound →
    (z = x ∨ t.mentions z = false) →
    Term.substitute z (x.leaf bound) (Term.substitute x new t) = t
  | .const c, placed, fresh => Term.Names.substitute_restores (Or.inl rfl) placed named fresh
  | .var c, placed, fresh => Term.Names.substitute_restores (Or.inr rfl) placed named fresh
  | .app f ts, placed, fresh => by
    rw [Term.substitute, Term.substitute, Arguments.substitute_restores named ts placed fresh]

theorem Arguments.substitute_restores (named : new.Names z) : ∀ ts : Arguments,
    ts.WellScoped bound → (z = x ∨ ts.mentions z = false) →
    (ts.substitute x new).substitute z (x.leaf bound) = ts
  | .one t, placed, fresh => by
    rw [Arguments.substitute, Arguments.substitute, Term.substitute_restores named t placed fresh]
  | .cons t ts, placed, fresh => by
    rw [Arguments.mentions, Bool.or_eq_false_iff, or_and_left] at fresh
    rw [Arguments.substitute, Arguments.substitute,
      Term.substitute_restores named t placed.1 fresh.1,
      Arguments.substitute_restores named ts placed.2 fresh.2]

end

mutual

def Term.Ground : Term → Prop
  | .const _ => True
  | .var _ => False
  | .app _ ts => ts.Ground

def Arguments.Ground : Arguments → Prop
  | .one t => t.Ground
  | .cons t ts => t.Ground ∧ ts.Ground

end

mutual

theorem Term.wellScoped_nil_iff : ∀ t : Term, t.WellScoped [] ↔ t.Ground
  | .const c => by simp [Term.WellScoped, Term.Ground]
  | .var x => by simp [Term.WellScoped, Term.Ground]
  | .app f ts => Arguments.wellScoped_nil_iff ts

theorem Arguments.wellScoped_nil_iff : ∀ ts : Arguments, ts.WellScoped [] ↔ ts.Ground
  | .one t => Term.wellScoped_nil_iff t
  | .cons t ts => and_congr (Term.wellScoped_nil_iff t) (Arguments.wellScoped_nil_iff ts)

end

namespace Atom

variable {a : Atom}

/-- The variables of an atom are bound above it or from outside, and the constants are not. -/
def WellScoped (bound : List Text) (a : Atom) : Prop :=
  a.arguments.WellScoped (a.binders.map Symbol.name ++ bound)

theorem mem_scope : y.name ∈ a.binders.map Symbol.name ++ bound ↔ y ∈ a.binders ∨ y.name ∈ bound := by
  rw [List.mem_append, List.mem_map_of_injective Symbol.name_injective]

theorem wellScoped_below : (a.below y).WellScoped bound ↔ a.WellScoped (y.name :: bound) := by
  have same (x : Symbol) : x.name ∈ (a.below y).binders.map Symbol.name ++ bound ↔
      x.name ∈ a.binders.map Symbol.name ++ y.name :: bound := by
    simp [below, or_left_comm]
  constructor
  · intro placed
    exact Arguments.WellScoped.congr placed fun x _ => same x
  · intro placed
    exact Arguments.WellScoped.congr placed fun x _ => (same x).symm

theorem WellScoped.replace (placed : a.WellScoped before) (clear : a.Free x → ¬a.Binds new)
    (others : ∀ y, a.Free y → y ≠ x → (y.name ∈ before ↔ y.name ∈ after))
    (brought : a.Free x → new.WellScoped after) : (a.replace x new).WellScoped after := by
  have agree (y : Symbol) (mentioned : a.arguments.mentions y = true) (other : y ∉ a.binders → y ≠ x) :
      y.name ∈ a.binders.map Symbol.name ++ before ↔ y.name ∈ a.binders.map Symbol.name ++ after := by
    rw [mem_scope, mem_scope]
    by_cases bound : y ∈ a.binders
    · simp only [bound, true_or]
    · rw [others y ⟨bound, mentioned⟩ (other bound)]
  by_cases free : a.Free x
  · have inside : new.WellScoped (a.binders.map Symbol.name ++ after) := by
      apply (brought free).congr
      intro y mentioned
      have unbound : y ∉ a.binders := fun bound => clear free ⟨y, bound, mentioned⟩
      rw [mem_scope, or_iff_right unbound]
    rw [WellScoped, binders_replace, Atom.replace, if_neg free.1]
    exact Arguments.WellScoped.substitute placed
      (fun y mentioned other => agree y mentioned fun _ => other) fun _ => inside
  · rw [replace_of_not_free free]
    refine Arguments.WellScoped.congr placed fun y mentioned => agree y mentioned ?_
    intro unbound same
    exact free ⟨same ▸ unbound, same ▸ mentioned⟩

theorem replace_restores (placed : a.WellScoped bound) (named : new.Names z)
    (clear : a.Free x → ¬a.Binds new) (fresh : z = x ∨ ¬a.Free z) :
    (a.replace x new).replace z (x.leaf bound) = a := by
  by_cases free : a.Free x
  · have unbound : z ∉ a.binders := fun bound => clear free ⟨z, bound, named.mentions.mpr rfl⟩
    have own : x.leaf bound = x.leaf (a.binders.map Symbol.name ++ bound) := by
      apply Symbol.leaf_congr
      rw [mem_scope, or_iff_right free.1]
    have back := Arguments.substitute_restores (x := x) named a.arguments placed
      (fresh.imp_right fun absent => mentions_eq_false absent unbound)
    simp only [Atom.replace, if_neg free.1, if_neg unbound, own, back]
  · have absent : ¬a.Free z := by
      rcases fresh with rfl | absent
      · exact free
      · exact absent
    rw [replace_of_not_free free, replace_of_not_free absent]

end Atom

namespace Sentence

variable {s r : Sentence}

theorem wellScoped_iff_atoms : s.WellScoped bound ↔ ∀ a ∈ s.atoms, a.WellScoped bound := by
  induction s generalizing bound with
  | truth b => simp [WellScoped, atoms]
  | proposition p => simp [WellScoped, atoms]
  | predicate p ts => simp [WellScoped, atoms, Atom.WellScoped]
  | negation s ih => exact ih
  | binary c l r ihl ihr =>
    rw [WellScoped, ihl, ihr, atoms, List.forall_mem_append]
  | quantified q y s ih =>
    simp only [WellScoped, ih, atoms, List.forall_mem_map, Atom.wellScoped_below]

theorem not_free_of_isFree {a : Atom} (absent : s.isFree x = false) (member : a ∈ s.atoms) :
    ¬a.Free x := by
  rw [← Bool.not_eq_true, isFree_iff] at absent
  exact fun free => absent ⟨a, member, free⟩

def occurs (x : Symbol) : Sentence → Bool
  | truth _ => false
  | proposition _ => false
  | predicate _ ts => ts.mentions x
  | negation s => s.occurs x
  | binary _ l r => l.occurs x || r.occurs x
  | quantified _ y s => y == x || s.occurs x

theorem not_mem_binders_of_occurs {a : Atom} (absent : s.occurs x = false) (member : a ∈ s.atoms) :
    x ∉ a.binders := by
  induction s generalizing a with
  | truth b => simp [atoms] at member
  | proposition p => simp [atoms] at member
  | predicate p ts =>
    rw [atoms, List.mem_singleton] at member
    rw [member]
    exact List.not_mem_nil
  | negation s ih => exact ih absent member
  | binary c l r ihl ihr =>
    have apart := Bool.or_eq_false_iff.mp absent
    rcases List.mem_append.mp member with left | right
    · exact ihl apart.1 left
    · exact ihr apart.2 right
  | quantified q y s ih =>
    have apart := Bool.or_eq_false_iff.mp absent
    rcases List.mem_map.mp member with ⟨a, inside, rfl⟩
    have other : x ≠ y := Ne.symm (by simpa using apart.1)
    simpa [Atom.below, other] using ih apart.2 inside

theorem not_free_of_occurs (absent : s.occurs x = false) : s.isFree x = false := by
  induction s with
  | truth b => rfl
  | proposition p => rfl
  | predicate p ts => exact absent
  | negation s ih => exact ih absent
  | binary c l r ihl ihr =>
    have apart := Bool.or_eq_false_iff.mp absent
    rw [isFree, ihl apart.1, ihr apart.2, Bool.or_false]
  | quantified q y s ih =>
    have apart := Bool.or_eq_false_iff.mp absent
    rw [isFree, ih apart.2, Bool.and_false]

/-- A sentence stays well scoped if the other free symbols are bound from outside as before, and the
term that is put in is well scoped there. -/
theorem WellScoped.substitute (placed : s.WellScoped before) (done : s.substitute x new = .ok r)
    (others : ∀ y, s.isFree y = true → y ≠ x → (y.name ∈ before ↔ y.name ∈ after))
    (brought : new.WellScoped after) : r.WellScoped after := by
  rw [wellScoped_iff_atoms] at placed ⊢
  intro a' member'
  rcases (mem_atoms_substitute done).mp member' with ⟨a, member, rfl⟩
  apply (placed a member).replace (not_binds_of_substitute done member)
  · intro y free
    exact others y (isFree_iff.mpr ⟨a, member, free⟩)
  · exact fun _ => brought

theorem substitute_restores (placed : s.WellScoped bound) (done : s.substitute x new = .ok r)
    (named : new.Names z) (fresh : z = x ∨ s.isFree z = false) :
    r.substitute z (x.leaf bound) = .ok s := by
  have fresh' (a : Atom) (member : a ∈ s.atoms) : z = x ∨ ¬a.Free z :=
    fresh.imp_right fun absent => not_free_of_isFree absent member
  have succeeds : ∃ s', r.substitute z (x.leaf bound) = .ok s' := by
    apply exists_substitute_iff_clear.mpr
    intro a' member' free' binds
    rcases (mem_atoms_substitute done).mp member' with ⟨a, member, rfl⟩
    rcases Atom.binds_replace.mp binds with ⟨y, above, mentioned⟩
    obtain rfl : x = y := (x.leaf_names bound).mentions.mp mentioned
    rcases Atom.free_replace.mp free' with ⟨other, free⟩ | ⟨free, -, -⟩
    · exact (fresh' a member).elim other fun absent => absent free
    · exact free.1 above
  rcases succeeds with ⟨s', back⟩
  have shape : s'.SameShape s :=
    ((atoms_substitute done).1.trans (atoms_substitute back).1).symm
  have atoms : s'.atoms = s.atoms := by
    rw [(atoms_substitute back).2, (atoms_substitute done).2, List.map_map]
    refine (List.map_congr_left fun a member => ?_).trans (List.map_id _)
    exact Atom.replace_restores (wellScoped_iff_atoms.mp placed a member) named
      (not_binds_of_substitute done member) (fresh' a member)
  rw [back, shape.eq_of_atoms atoms]

end Sentence

end ProofDesk.Logic
