import ProofDesk.Proofs.Logic.Occurrences

namespace ProofDesk.Logic

variable {x y z : Symbol} {new t u : Term}

/-- A term that is a constant or a variable of a name. -/
def Term.Names (x : Symbol) (t : Term) : Prop := t = .const x ∨ t = .var x

namespace Term.Names

theorem mentions (names : t.Names x) : t.mentions z = true ↔ x = z := by
  rcases names with rfl | rfl <;> simp [Term.mentions]

theorem substitute_self (names : t.Names x) : Term.substitute x new t = new := by
  rcases names with rfl | rfl <;> simp [Term.substitute]

theorem substitute_other (names : t.Names x) (other : x ≠ z) : Term.substitute z new t = t := by
  apply substitute_of_not_mentioned
  rw [← Bool.not_eq_true, names.mentions]
  exact other

/-- A name is one of the two symbols, or both substitutions leave it. -/
theorem substitute_substitute {v : Term} {c : Symbol} (names : v.Names c) (apart : x ≠ y)
    (unmentioned : u.mentions x = false) (t : Term) :
    Term.substitute y u (Term.substitute x t v) =
      Term.substitute x (Term.substitute y u t) (Term.substitute y u v) := by
  by_cases first : c = x
  · subst first
    rw [names.substitute_self, names.substitute_other apart, names.substitute_self]
  · rw [names.substitute_other first]
    by_cases second : c = y
    · subst second
      rw [names.substitute_self, substitute_of_not_mentioned _ u unmentioned]
    · rw [names.substitute_other second, names.substitute_other first]

end Term.Names

mutual

theorem substitute_substitute (apart : x ≠ y) (unmentioned : u.mentions x = false) (t : Term) :
    ∀ v : Term, Term.substitute y u (Term.substitute x t v) =
      Term.substitute x (Term.substitute y u t) (Term.substitute y u v)
  | .const c => Term.Names.substitute_substitute (Or.inl rfl) apart unmentioned t
  | .var c => Term.Names.substitute_substitute (Or.inr rfl) apart unmentioned t
  | .app f ts => by
    simp only [Term.substitute, substituteAll_substituteAll apart unmentioned t ts]

theorem substituteAll_substituteAll (apart : x ≠ y) (unmentioned : u.mentions x = false)
    (t : Term) : ∀ ts : Arguments, (ts.substitute x t).substitute y u =
      (ts.substitute y u).substitute x (Term.substitute y u t)
  | .one v => by
    simp only [Arguments.substitute, substitute_substitute apart unmentioned t v]
  | .cons v ts => by
    simp only [Arguments.substitute, substitute_substitute apart unmentioned t v,
      substituteAll_substituteAll apart unmentioned t ts]

end

namespace Atom

variable {a : Atom}

theorem binds_replace : (a.replace x new).Binds t ↔ a.Binds t := by
  rw [Binds, binders_replace, Binds]

theorem mentions_eq_false (absent : ¬a.Free x) (unbound : x ∉ a.binders) :
    a.arguments.mentions x = false := by
  rw [← Bool.not_eq_true]
  exact fun mentioned => absent ⟨unbound, mentioned⟩

theorem replace_of_bound (bound : x ∈ a.binders) : a.replace x new = a := if_pos bound

theorem replace_of_not_free (absent : ¬a.Free x) : a.replace x new = a := by
  by_cases bound : x ∈ a.binders
  · exact replace_of_bound bound
  · rw [replace, if_neg bound,
      substituteAll_of_not_mentioned new a.arguments (mentions_eq_false absent bound)]

theorem free_of_free_replace (unmentioned : u.mentions x = false) (free : (a.replace y u).Free x) :
    a.Free x := by
  rcases free_replace.mp free with ⟨-, free⟩ | ⟨-, -, brought⟩
  · exact free
  · rw [unmentioned] at brought
    cases brought

theorem replace_replace (apart : x ≠ y) (unmentioned : u.mentions x = false)
    (uncaptured : a.Free x → ¬a.Binds t) : (a.replace x t).replace y u =
      (a.replace y u).replace x (Term.substitute y u t) := by
  by_cases free : a.Free x
  · by_cases bound : y ∈ a.binders
    · -- the term for the first symbol would have been captured if it mentioned the second
      have kept : t.mentions y = false := by
        rw [← Bool.not_eq_true]
        exact fun mentioned => uncaptured free ⟨y, bound, mentioned⟩
      have bound' : y ∈ (a.replace x t).binders := by rwa [binders_replace]
      rw [replace_of_bound bound', replace_of_bound bound, substitute_of_not_mentioned u t kept]
    · simp only [replace, if_neg bound, if_neg free.1,
        substituteAll_substituteAll apart unmentioned t]
  · have absent : ¬(a.replace y u).Free x :=
      fun free' => free (free_of_free_replace unmentioned free')
    rw [replace_of_not_free free, replace_of_not_free absent]

end Atom

namespace Sentence

variable {s r r' s₁ s₂ s₃ : Sentence}

theorem SameShape.trans (first : s.SameShape r) (second : r.SameShape r') : s.SameShape r' := by
  induction first generalizing r' with
  | truth b => exact second
  | proposition p => exact second
  | predicate p ts us =>
    cases second with
    | predicate _ _ vs => exact .predicate p ts vs
  | negation _ ih =>
    cases second with
    | negation inside => exact .negation (ih inside)
  | binary c _ _ ihl ihr =>
    cases second with
    | binary _ left right => exact .binary c (ihl left) (ihr right)
  | quantified q y _ ih =>
    cases second with
    | quantified _ _ inside => exact .quantified q y (ih inside)

theorem SameShape.length_atoms (same : s.SameShape r) : s.atoms.length = r.atoms.length := by
  induction same with
  | truth b => rfl
  | proposition p => rfl
  | predicate p ts us => rfl
  | negation _ ih => exact ih
  | binary c _ _ ihl ihr => rw [atoms, atoms, List.length_append, List.length_append, ihl, ihr]
  | quantified q y _ ih => rw [atoms, atoms, List.length_map, List.length_map, ih]

theorem below_injective (y : Symbol) : Function.Injective (Atom.below y) := by
  intro a b same
  cases a
  cases b
  simpa [Atom.below] using same

/-- A sentence is known by its shape and its atoms. -/
theorem SameShape.eq_of_atoms (same : s.SameShape r) (atoms : s.atoms = r.atoms) : s = r := by
  induction same with
  | truth b => rfl
  | proposition p => rfl
  | predicate p ts us =>
    rw [Sentence.atoms, Sentence.atoms, List.cons.injEq, Atom.mk.injEq] at atoms
    rw [atoms.1.2.2]
  | negation _ ih => rw [ih atoms]
  | binary c left _ ihl ihr =>
    have split := List.append_inj atoms left.length_atoms
    rw [ihl split.1, ihr split.2]
  | quantified q y _ ih => rw [ih ((below_injective y).list_map atoms)]

theorem SameShape.symm (same : s.SameShape r) : r.SameShape s := by
  induction same with
  | truth b => exact .truth b
  | proposition p => exact .proposition p
  | predicate p ts us => exact .predicate p us ts
  | negation _ ih => exact .negation ih
  | binary c _ _ ihl ihr => exact .binary c ihl ihr
  | quantified q y _ ih => exact .quantified q y ih

theorem exists_substitute_iff_clear :
    (∃ r, s.substitute x new = .ok r) ↔ ∀ a ∈ s.atoms, a.Free x → ¬a.Binds new := by
  simp [exists_substitute_iff, Captures]

theorem not_binds_of_substitute {a : Atom} (done : s.substitute x new = .ok r)
    (member : a ∈ s.atoms) (free : a.Free x) : ¬a.Binds new :=
  exists_substitute_iff_clear.mp ⟨r, done⟩ a member free

theorem mem_atoms_substitute {a : Atom} (done : s.substitute x new = .ok r) :
    a ∈ r.atoms ↔ ∃ b ∈ s.atoms, b.replace x new = a := by
  rw [(atoms_substitute done).2, List.mem_map]

theorem not_binds_of_substitute_twice {a : Atom} (first : s.substitute x t = .ok s₁)
    (second : s₁.substitute y u = .ok s₂) (member : a ∈ s.atoms) (free : (a.replace x t).Free y) :
    ¬a.Binds u := by
  have replaced : a.replace x t ∈ s₁.atoms := (mem_atoms_substitute first).mpr ⟨a, member, rfl⟩
  have clear := not_binds_of_substitute second replaced free
  rwa [Atom.binds_replace] at clear

theorem exists_substitute_second (apart : x ≠ y) (first : s.substitute x t = .ok s₁)
    (second : s₁.substitute y u = .ok s₂) : ∃ s₃, s.substitute y u = .ok s₃ := by
  apply exists_substitute_iff_clear.mpr
  intro a member free
  exact not_binds_of_substitute_twice first second member
    (Atom.free_replace.mpr (Or.inl ⟨apart.symm, free⟩))

theorem exists_substitute_first (unmentioned : u.mentions x = false)
    (first : s.substitute x t = .ok s₁) (second : s₁.substitute y u = .ok s₂)
    (third : s.substitute y u = .ok s₃) :
    ∃ s₄, s₃.substitute x (Term.substitute y u t) = .ok s₄ := by
  apply exists_substitute_iff_clear.mpr
  intro a' member' free' binds
  rcases (mem_atoms_substitute third).mp member' with ⟨a, member, rfl⟩
  rw [Atom.binds_replace] at binds
  rcases binds with ⟨z, bound, mentioned⟩
  have free : a.Free x := Atom.free_of_free_replace unmentioned free'
  have clear := not_binds_of_substitute first member free
  -- the symbol that would be captured comes from t or, in place of y in t, from u
  rcases (mentions_substitute y z u t).mp mentioned with ⟨-, own⟩ | ⟨through, own⟩
  · exact clear ⟨z, bound, own⟩
  · have unbound : y ∉ a.binders := fun bound' => clear ⟨y, bound', through⟩
    have brought : (a.replace x t).Free y := Atom.free_replace.mpr (Or.inr ⟨free, unbound, through⟩)
    exact not_binds_of_substitute_twice first second member brought ⟨z, bound, own⟩

/-- Two substitutions for different symbols succeed in the other order as well, and with the same
result, if the second one is also made in the term of the first. -/
theorem substitute_commutes (apart : x ≠ y) (unmentioned : u.mentions x = false)
    (first : s.substitute x t = .ok s₁) (second : s₁.substitute y u = .ok s₂) :
    ∃ s₃, s.substitute y u = .ok s₃ ∧ s₃.substitute x (Term.substitute y u t) = .ok s₂ := by
  rcases exists_substitute_second apart first second with ⟨s₃, third⟩
  rcases exists_substitute_first unmentioned first second third with ⟨s₄, fourth⟩
  have shape : s₂.SameShape s₄ :=
    ((atoms_substitute first).1.trans (atoms_substitute second).1).symm.trans
      ((atoms_substitute third).1.trans (atoms_substitute fourth).1)
  have atoms : s₂.atoms = s₄.atoms := by
    rw [(atoms_substitute second).2, (atoms_substitute first).2, (atoms_substitute fourth).2,
      (atoms_substitute third).2, List.map_map, List.map_map]
    apply List.map_congr_left
    intro a member
    exact Atom.replace_replace apart unmentioned (not_binds_of_substitute first member)
  rw [shape.eq_of_atoms atoms]
  exact ⟨s₃, third, fourth⟩

/-- R of two terms, and for all x and some z again R of x, the second term and z. -/
def besideBinder (relation x z : Symbol) (t u : Term) : Sentence :=
  .binary .conjunction (.predicate relation (.cons t (.one u)))
    (.quantified .universal x (.quantified .existential z
      (.predicate relation (.cons (.var x) (.cons u (.one (.var z)))))))

/-- The term for x has y in it, and the x below its quantifier stays. -/
theorem substitute_commutes_besideBinder :
    let x : Symbol := ⟨"x", by decide⟩
    let y : Symbol := ⟨"y", by decide⟩
    let t : Term := .app ⟨"f", by decide⟩ (.one (.var y))
    let u : Term := .const ⟨"c", by decide⟩
    let s : Term → Term → Sentence := besideBinder ⟨"R", by decide⟩ x ⟨"z", by decide⟩
    x ≠ y ∧ u.mentions x = false ∧
      (s (.var x) (.var y)).substitute x t = .ok (s t (.var y)) ∧
      (s t (.var y)).substitute y u = .ok (s (Term.substitute y u t) u) ∧
      Term.substitute y u t ≠ t ∧
      ∃ s₃, (s (.var x) (.var y)).substitute y u = .ok s₃ ∧
        s₃.substitute x (Term.substitute y u t) = .ok (s (Term.substitute y u t) u) := by
  intro x y t u s
  have apart : x ≠ y := by decide
  have unmentioned : u.mentions x = false := by decide
  have first : (s (.var x) (.var y)).substitute x t = .ok (s t (.var y)) := rfl
  have second : (s t (.var y)).substitute y u = .ok (s (Term.substitute y u t) u) := rfl
  have changed : Term.substitute y u t ≠ t := by decide
  exact ⟨apart, unmentioned, first, second, changed,
    substitute_commutes apart unmentioned first second⟩

end Sentence

end ProofDesk.Logic
