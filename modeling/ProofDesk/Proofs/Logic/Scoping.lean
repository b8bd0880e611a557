import ProofDesk.Logic.Scope
import ProofDesk.Proofs.Outcome

namespace ProofDesk.Logic

namespace Raw

mutual

def Term.classify (bound : List Text) : Term → Except FormationError Logic.Term
  | .symbol x => (Symbol.ofText? x).map fun s => if x ∈ bound then .var s else .const s
  | .application f ts => do
    let f ← Symbol.ofText? f
    let ts ← Term.classifyAll bound ts
    (Arguments.ofList? ts).map (.app f)

def Term.classifyAll (bound : List Text) : List Term → Except FormationError (List Logic.Term)
  | [] => .ok []
  | t :: ts => do
    let t ← t.classify bound
    let ts ← Term.classifyAll bound ts
    return t :: ts

end

/-- The sentence with bound names for variables; a quantifier binds its name as well. -/
def Sentence.classify (bound : List Text) : Sentence → Except FormationError Logic.Sentence
  | .truth b => .ok (.truth b)
  | .predicate p [] => (Symbol.ofText? p).map .proposition
  | .predicate p (t :: ts) => do
    let p ← Symbol.ofText? p
    let ts ← Term.classifyAll bound (t :: ts)
    (Arguments.ofList? ts).map (.predicate p)
  | .negation s => do
    let s ← s.classify bound
    return .negation s
  | .binary l c r => do
    let l ← l.classify bound
    let r ← r.classify bound
    return .binary c l r
  | .quantified q x s => do
    let s ← s.classify (x :: bound)
    (Symbol.ofText? x).map fun x => .quantified q x s

theorem andThen_pure {α β : Type} {bound : Stack Text} {first : Scoping α} {next : α → Scoping β}
    {x : Except FormationError α} {f : α → Except FormationError β}
    (start : first bound = (x, bound)) (rest : ∀ a, next a bound = (f a, bound)) :
    first.andThen next bound = (x >>= f, bound) := by
  rw [Scoping.andThen, start]
  cases x with
  | error e => rfl
  | ok a => exact rest a

mutual

theorem Term.scope_eq_classify (bound : Stack Text) :
    ∀ t : Term, t.scope bound = (t.classify bound.elements, bound)
  | .symbol x => by
    rw [Term.scope, Term.classify]
    by_cases member : x ∈ bound.elements
    · have inside : bound.contains x = true := List.contains_iff_mem.mpr member
      simp only [inside, member, if_true]
    · have outside : bound.contains x = false := by
        rw [← Bool.not_eq_true]
        exact fun inside => member (List.contains_iff_mem.mp inside)
      simp only [outside, member, if_false, Bool.false_eq_true]
  | .application f ts => by
    rw [Term.scope, Term.classify]
    apply andThen_pure rfl
    intro f
    exact andThen_pure (Term.scopeAll_eq_classifyAll bound ts) fun ts => rfl

theorem Term.scopeAll_eq_classifyAll (bound : Stack Text) :
    ∀ ts : List Term, Term.scopeAll ts bound = (Term.classifyAll bound.elements ts, bound)
  | [] => rfl
  | t :: ts => by
    rw [Term.scopeAll, Term.classifyAll]
    apply andThen_pure (Term.scope_eq_classify bound t)
    intro t
    exact andThen_pure (Term.scopeAll_eq_classifyAll bound ts) fun ts => rfl

end

/-- Scoping with the stack is scoping with the names that are on it. -/
theorem Sentence.scope_eq_classify (s : Sentence) (bound : Stack Text) :
    s.scope bound = (s.classify bound.elements, bound) := by
  induction s generalizing bound with
  | truth b => rfl
  | predicate p ts =>
    cases ts with
    | nil => rfl
    | cons t ts =>
      rw [Sentence.scope, Sentence.classify]
      apply andThen_pure rfl
      intro p
      exact andThen_pure (Term.scopeAll_eq_classifyAll bound (t :: ts)) fun ts => rfl
  | negation s ih =>
    rw [Sentence.scope, Sentence.classify]
    exact andThen_pure (ih bound) fun s => rfl
  | binary l c r ihl ihr =>
    rw [Sentence.scope, Sentence.classify]
    apply andThen_pure (ihl bound)
    intro l
    exact andThen_pure (ihr bound) fun r => rfl
  | quantified q x s ih =>
    rw [Sentence.scope, Sentence.classify]
    refine andThen_pure ?_ fun s => rfl
    rw [Stack.withPushed, ih (bound.push x)]
    rfl

end Raw

mutual

def Term.raw : Term → Raw.Term
  | .const c => .symbol c.name
  | .var x => .symbol x.name
  | .app f ts => .application f.name ts.raw

def Arguments.raw : Arguments → List Raw.Term
  | .one t => [t.raw]
  | .cons t ts => t.raw :: ts.raw

end

def Sentence.raw : Sentence → Raw.Sentence
  | .truth b => .truth b
  | .proposition p => .predicate p.name []
  | .predicate p ts => .predicate p.name ts.raw
  | .negation s => .negation s.raw
  | .binary c l r => .binary l.raw c r.raw
  | .quantified q x s => .quantified q x.name s.raw

mutual

def Term.reclassify (bound : List Text) : Term → Term
  | .const c => if c.name ∈ bound then .var c else .const c
  | .var x => if x.name ∈ bound then .var x else .const x
  | .app f ts => .app f (ts.reclassify bound)

def Arguments.reclassify (bound : List Text) : Arguments → Arguments
  | .one t => .one (t.reclassify bound)
  | .cons t ts => .cons (t.reclassify bound) (ts.reclassify bound)

end

def Sentence.reclassify (bound : List Text) : Sentence → Sentence
  | .truth b => .truth b
  | .proposition p => .proposition p
  | .predicate p ts => .predicate p (ts.reclassify bound)
  | .negation s => .negation (s.reclassify bound)
  | .binary c l r => .binary c (l.reclassify bound) (r.reclassify bound)
  | .quantified q x s => .quantified q x (s.reclassify (x.name :: bound))

mutual

def Term.WellScoped (bound : List Text) : Term → Prop
  | .const c => c.name ∉ bound
  | .var x => x.name ∈ bound
  | .app _ ts => ts.WellScoped bound

def Arguments.WellScoped (bound : List Text) : Arguments → Prop
  | .one t => t.WellScoped bound
  | .cons t ts => t.WellScoped bound ∧ ts.WellScoped bound

end

/-- Every variable lies below a quantifier that binds its name, unless the name is bound from
outside, and no constant does. -/
def Sentence.WellScoped (bound : List Text) : Sentence → Prop
  | .truth _ => True
  | .proposition _ => True
  | .predicate _ ts => ts.WellScoped bound
  | .negation s => s.WellScoped bound
  | .binary _ l r => l.WellScoped bound ∧ r.WellScoped bound
  | .quantified _ x s => s.WellScoped (x.name :: bound)

@[simp]
theorem ofText?_name (x : Symbol) : Symbol.ofText? x.name = .ok x := by
  rw [Symbol.ofText?, dif_pos x.valid]

theorem ofText?_eq_ok {s : Text} {x : Symbol} : Symbol.ofText? s = .ok x ↔ x.name = s := by
  constructor
  · intro formed
    unfold Symbol.ofText? at formed
    split at formed
    · cases formed
      rfl
    · cases formed
  · rintro rfl
    exact ofText?_name x

theorem ofList?_toList : ∀ ts : Arguments, Arguments.ofList? ts.toList = .ok ts
  | .one _ => rfl
  | .cons t (.one u) => rfl
  | .cons t (.cons u ts) => by
    have rest := ofList?_toList (.cons u ts)
    rw [Arguments.toList, Arguments.toList] at *
    rw [Arguments.ofList?, rest]
    rfl

theorem ofList?_eq_ok {ts : List Term} {us : Arguments} (formed : Arguments.ofList? ts = .ok us) :
    us.toList = ts := by
  fun_induction Arguments.ofList? ts generalizing us with
  | case1 => cases formed
  | case2 t =>
    cases formed
    rfl
  | case3 t u ts ih =>
    cases rest : Arguments.ofList? (u :: ts) with
    | error e =>
      rw [rest] at formed
      cases formed
    | ok vs =>
      rw [rest] at formed
      cases formed
      rw [Arguments.toList, ih rest]

/-! Classifying the forgotten names gives each its place. -/

mutual

theorem Term.classify_raw (bound : List Text) :
    ∀ t : Term, t.raw.classify bound = .ok (t.reclassify bound)
  | .const c => by
    rw [Term.raw, Raw.Term.classify, ofText?_name, Term.reclassify]
    rfl
  | .var x => by
    rw [Term.raw, Raw.Term.classify, ofText?_name, Term.reclassify]
    rfl
  | .app f ts => by
    rw [Term.raw, Raw.Term.classify, ofText?_name, Arguments.classifyAll_raw bound ts]
    change (Arguments.ofList? _).map _ = _
    rw [ofList?_toList, Term.reclassify]
    rfl

theorem Arguments.classifyAll_raw (bound : List Text) :
    ∀ ts : Arguments, Raw.Term.classifyAll bound ts.raw = .ok (ts.reclassify bound).toList
  | .one t => by
    rw [Arguments.raw, Raw.Term.classifyAll, Term.classify_raw bound t]
    rfl
  | .cons t ts => by
    rw [Arguments.raw, Raw.Term.classifyAll, Term.classify_raw bound t,
      Arguments.classifyAll_raw bound ts]
    rfl

end

theorem Sentence.classify_raw (s : Sentence) (bound : List Text) :
    s.raw.classify bound = .ok (s.reclassify bound) := by
  induction s generalizing bound with
  | truth b => rfl
  | proposition p =>
    rw [Sentence.raw, Raw.Sentence.classify, ofText?_name]
    rfl
  | predicate p ts =>
    have inside := Arguments.classifyAll_raw bound ts
    cases ts with
    | one t =>
      rw [Arguments.raw] at inside
      rw [Sentence.raw, Arguments.raw, Raw.Sentence.classify, ofText?_name, inside]
      rfl
    | cons t ts =>
      rw [Arguments.raw] at inside
      rw [Sentence.raw, Arguments.raw, Raw.Sentence.classify, ofText?_name, inside]
      change (Arguments.ofList? _).map _ = _
      rw [ofList?_toList]
      rfl
  | negation s ih =>
    rw [Sentence.raw, Raw.Sentence.classify, ih]
    rfl
  | binary c l r ihl ihr =>
    rw [Sentence.raw, Raw.Sentence.classify, ihl, ihr]
    rfl
  | quantified q x s ih =>
    rw [Sentence.raw, Raw.Sentence.classify, ih, ofText?_name]
    rfl

theorem Arguments.wellScoped_iff {bound : List Text} :
    ∀ ts : Arguments, ts.WellScoped bound ↔ ∀ t ∈ ts.toList, t.WellScoped bound
  | .one t => by simp [Arguments.WellScoped, Arguments.toList]
  | .cons t ts => by simp [Arguments.WellScoped, Arguments.toList, Arguments.wellScoped_iff ts]

theorem Arguments.raw_eq_map : ∀ ts : Arguments, ts.raw = ts.toList.map Term.raw
  | .one t => rfl
  | .cons t ts => by rw [Arguments.raw, Arguments.toList, List.map_cons, Arguments.raw_eq_map ts]

theorem Arguments.placed_of_listed {bound : List Text} {ts : List Raw.Term} {us : List Term}
    {vs : Arguments} (listed : Arguments.ofList? us = .ok vs) (names : us.map Term.raw = ts)
    (placed : ∀ u ∈ us, u.WellScoped bound) : vs.raw = ts ∧ vs.WellScoped bound := by
  have same : vs.toList = us := ofList?_eq_ok listed
  constructor
  · rw [Arguments.raw_eq_map, same, names]
  · rw [Arguments.wellScoped_iff, same]
    exact placed

mutual

theorem Term.classify_eq_ok {bound : List Text} : ∀ {t : Raw.Term} {u : Term},
    t.classify bound = .ok u → u.raw = t ∧ u.WellScoped bound
  | .symbol x, u, classified => by
    rw [Raw.Term.classify] at classified
    cases formed : Symbol.ofText? x with
    | error e =>
      rw [formed] at classified
      cases classified
    | ok s =>
      rw [formed] at classified
      cases classified
      obtain rfl := ofText?_eq_ok.mp formed
      dsimp only
      by_cases member : s.name ∈ bound
      · rw [if_pos member]
        exact ⟨rfl, member⟩
      · rw [if_neg member]
        exact ⟨rfl, member⟩
  | .application f ts, u, classified => by
    rw [Raw.Term.classify] at classified
    rcases bind_eq_ok_iff.mp classified with ⟨g, formed, classified⟩
    rcases bind_eq_ok_iff.mp classified with ⟨us, inside, classified⟩
    rcases map_eq_ok_iff.mp classified with ⟨vs, listed, rfl⟩
    have inner := Term.classifyAll_eq_ok inside
    obtain ⟨names, placed⟩ := Arguments.placed_of_listed listed inner.1 inner.2
    rw [Term.raw, names, ofText?_eq_ok.mp formed]
    exact ⟨rfl, placed⟩

theorem Term.classifyAll_eq_ok {bound : List Text} : ∀ {ts : List Raw.Term} {us : List Term},
    Raw.Term.classifyAll bound ts = .ok us →
      us.map Term.raw = ts ∧ ∀ u ∈ us, u.WellScoped bound
  | [], us, classified => by
    cases classified
    simp
  | t :: ts, us, classified => by
    rw [Raw.Term.classifyAll] at classified
    rcases bind_eq_ok_iff.mp classified with ⟨v, first, classified⟩
    rcases bind_eq_ok_iff.mp classified with ⟨vs, rest, classified⟩
    cases classified
    obtain ⟨name, placed⟩ := Term.classify_eq_ok first
    obtain ⟨names, others⟩ := Term.classifyAll_eq_ok rest
    rw [List.map_cons, name, names]
    refine ⟨rfl, ?_⟩
    intro u member
    rcases List.mem_cons.mp member with rfl | later
    · exact placed
    · exact others u later

end

theorem Sentence.classify_eq_ok {r : Raw.Sentence} {bound : List Text} {s : Sentence}
    (classified : r.classify bound = .ok s) : s.raw = r ∧ s.WellScoped bound := by
  induction r generalizing bound s with
  | truth b =>
    cases classified
    exact ⟨rfl, trivial⟩
  | predicate p ts =>
    cases ts with
    | nil =>
      rw [Raw.Sentence.classify] at classified
      rcases map_eq_ok_iff.mp classified with ⟨q, formed, rfl⟩
      rw [Sentence.raw, ofText?_eq_ok.mp formed]
      exact ⟨rfl, trivial⟩
    | cons t ts =>
      rw [Raw.Sentence.classify] at classified
      rcases bind_eq_ok_iff.mp classified with ⟨q, formed, classified⟩
      rcases bind_eq_ok_iff.mp classified with ⟨us, inside, classified⟩
      rcases map_eq_ok_iff.mp classified with ⟨vs, listed, rfl⟩
      have inner := Term.classifyAll_eq_ok inside
      obtain ⟨names, placed⟩ := Arguments.placed_of_listed listed inner.1 inner.2
      rw [Sentence.raw, names, ofText?_eq_ok.mp formed]
      exact ⟨rfl, placed⟩
  | negation r ih =>
    rw [Raw.Sentence.classify] at classified
    rcases bind_eq_ok_iff.mp classified with ⟨s, inside, classified⟩
    cases classified
    obtain ⟨names, placed⟩ := ih inside
    rw [Sentence.raw, names]
    exact ⟨rfl, placed⟩
  | binary l c r ihl ihr =>
    rw [Raw.Sentence.classify] at classified
    rcases bind_eq_ok_iff.mp classified with ⟨left, first, classified⟩
    rcases bind_eq_ok_iff.mp classified with ⟨right, second, classified⟩
    cases classified
    obtain ⟨names, placed⟩ := ihl first
    obtain ⟨names', placed'⟩ := ihr second
    rw [Sentence.raw, names, names']
    exact ⟨rfl, placed, placed'⟩
  | quantified q x r ih =>
    rw [Raw.Sentence.classify] at classified
    rcases bind_eq_ok_iff.mp classified with ⟨s, inside, classified⟩
    rcases map_eq_ok_iff.mp classified with ⟨y, formed, rfl⟩
    obtain rfl := ofText?_eq_ok.mp formed
    obtain ⟨names, placed⟩ := ih inside
    rw [Sentence.raw, names]
    exact ⟨rfl, placed⟩

end ProofDesk.Logic
