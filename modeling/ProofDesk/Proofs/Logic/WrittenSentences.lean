import ProofDesk.Proofs.Logic.RoundTrip
import ProofDesk.Proofs.Logic.Symbols

namespace ProofDesk.Logic

namespace Raw

/-! Only which names are bound matters, not in which order or how often. -/

section

variable {bound bound' : List Text}

mutual

theorem Term.classify_congr (same : ∀ x, x ∈ bound ↔ x ∈ bound') :
    ∀ t : Term, t.classify bound = t.classify bound'
  | .symbol x => by simp only [Term.classify, same]
  | .application f ts => by
    rw [Term.classify, Term.classify, Term.classifyAll_congr same ts]

theorem Term.classifyAll_congr (same : ∀ x, x ∈ bound ↔ x ∈ bound') :
    ∀ ts : List Term, Term.classifyAll bound ts = Term.classifyAll bound' ts
  | [] => rfl
  | t :: ts => by
    rw [Term.classifyAll, Term.classifyAll, Term.classify_congr same t,
      Term.classifyAll_congr same ts]

end

theorem Sentence.classify_congr (same : ∀ x, x ∈ bound ↔ x ∈ bound') (s : Sentence) :
    s.classify bound = s.classify bound' := by
  induction s generalizing bound bound' with
  | truth b => rfl
  | predicate p ts =>
    cases ts with
    | nil => rfl
    | cons t ts =>
      rw [Sentence.classify, Sentence.classify, Term.classifyAll_congr same (t :: ts)]
  | negation s ih => rw [Sentence.classify, Sentence.classify, ih same]
  | binary l c r left right =>
    rw [Sentence.classify, Sentence.classify, left same, right same]
  | quantified q x s ih =>
    -- the quantifier binds its name on both sides, whether it was bound before or not
    have inside (y : Text) : y ∈ x :: bound ↔ y ∈ x :: bound' := by
      rw [List.mem_cons, List.mem_cons, same]
    rw [Sentence.classify, Sentence.classify, ih inside]

theorem Term.classify_eq_ok_iff {t : Term} {u : Logic.Term} :
    t.classify bound = .ok u ↔ u.raw = t ∧ u.WellScoped bound := by
  constructor
  · exact Logic.Term.classify_eq_ok
  · intro both
    rcases both with ⟨rfl, placed⟩
    rw [Logic.Term.classify_raw, (Logic.Term.reclassify_eq_self_iff u).mpr placed]

theorem Sentence.classify_eq_ok_iff {s : Sentence} {u : Logic.Sentence} :
    s.classify bound = .ok u ↔ u.raw = s ∧ u.WellScoped bound := by
  constructor
  · exact Logic.Sentence.classify_eq_ok
  · intro both
    rcases both with ⟨rfl, placed⟩
    rw [Logic.Sentence.classify_raw, (Logic.Sentence.reclassify_eq_self_iff u bound).mpr placed]

end

section

variable {s : Sentence} {stack : Stack Text} {u : Logic.Sentence}

theorem Sentence.raw_of_scope (formed : (s.scope stack).1 = .ok u) : u.raw = s := by
  rw [Sentence.scope_eq_classify] at formed
  exact (Sentence.classify_eq_ok_iff.mp formed).1

theorem Sentence.exists_scope_iff : (∃ u, (s.scope stack).1 = .ok u) ↔ s.Named := by
  constructor
  · intro some'
    rcases some' with ⟨u, formed⟩
    rw [← Sentence.raw_of_scope formed]
    exact u.named_raw
  · intro named
    rcases Sentence.exists_scope named stack with ⟨u, formed⟩
    exact ⟨u, congrArg Prod.fst formed⟩

theorem Sentence.print_of_scope (formed : (s.scope stack).1 = .ok u) : u.print = s.print := by
  rw [← Logic.Sentence.print_raw, Sentence.raw_of_scope formed]

theorem Sentence.parse_print_iff : Sentence.parse s.print = .ok s ↔ s.Named :=
  ⟨Sentence.named_of_parse, Sentence.parse_print s⟩

end

end Raw

/-- Scoping with a stack is passing down the set of the names on it, whatever list gives that set.
It succeeds with exactly the sentence or term of the same names whose variables are bound and whose
constants are not; and it leaves the stack as it was, whether it succeeds or not. -/
theorem scope_passes_names :
    (∀ (s : Raw.Sentence) (stack : Stack Text) (bound : List Text),
      (∀ x, x ∈ bound ↔ x ∈ stack.elements) → s.scope stack = (s.classify bound, stack)) ∧
    (∀ (t : Raw.Term) (stack : Stack Text) (bound : List Text),
      (∀ x, x ∈ bound ↔ x ∈ stack.elements) → t.scope stack = (t.classify bound, stack)) ∧
    (∀ (s : Raw.Sentence) (bound : List Text) (u : Sentence),
      s.classify bound = .ok u ↔ u.raw = s ∧ u.WellScoped bound) ∧
    ∀ (t : Raw.Term) (bound : List Text) (u : Term),
      t.classify bound = .ok u ↔ u.raw = t ∧ u.WellScoped bound := by
  refine ⟨?_, ?_, ?_, ?_⟩
  · intro s stack bound same
    rw [Raw.Sentence.scope_eq_classify, Raw.Sentence.classify_congr same]
  · intro t stack bound same
    rw [Raw.Term.scope_eq_classify, Raw.Term.classify_congr same]
  · intro s bound u
    exact Raw.Sentence.classify_eq_ok_iff
  · intro t bound u
    exact Raw.Term.classify_eq_ok_iff

def boundTwice (x y : Text) : Raw.Sentence :=
  .quantified .universal x (.quantified .existential x (.predicate "P" [.symbol x, .symbol y]))

/-- With y bound from outside all arguments are variables.  A keyword in its place is found below
both quantifiers, whose names are off the stack again. -/
theorem scope_passes_names_boundTwice :
    (∃ u, (boundTwice "x" "y").scope ⟨["y", "x", "y"]⟩ = (.ok u, ⟨["y", "x", "y"]⟩) ∧
      u.raw = boundTwice "x" "y" ∧ u.WellScoped ["x", "y"]) ∧
    (boundTwice "x" "OR").scope ⟨["y"]⟩ = (.error (.malformedSymbol "OR"), ⟨["y"]⟩) ∧
    ∃ u, (Raw.Term.application "f" [.symbol "y"]).scope ⟨["y", "y"]⟩ = (.ok u, ⟨["y", "y"]⟩) ∧
      u.raw = .application "f" [.symbol "y"] ∧ u.WellScoped ["y"] := by
  rcases scope_passes_names with ⟨sentences, terms, classes, classes'⟩
  let x : Symbol := ⟨"x", by decide⟩
  let y : Symbol := ⟨"y", by decide⟩
  let P : Symbol := ⟨"P", by decide⟩
  let f : Symbol := ⟨"f", by decide⟩
  have twice : (boundTwice "x" "y").classify ["x", "y"] = .ok (.quantified .universal x
      (.quantified .existential x (.predicate P (.cons (.var x) (.one (.var y)))))) := by decide
  have applied : (Raw.Term.application "f" [.symbol "y"]).classify ["y"] =
      .ok (.app f (.one (.var y))) := by decide
  have keyword : (boundTwice "x" "OR").classify ["y"] = .error (.malformedSymbol "OR") := by decide
  refine ⟨⟨_, ?_, (classes _ _ _).mp twice⟩, ?_, ⟨_, ?_, (classes' _ _ _).mp applied⟩⟩
  · rw [sentences _ ⟨["y", "x", "y"]⟩ ["x", "y"] (by simp [or_comm]), twice]
  · rw [sentences _ ⟨["y"]⟩ ["y"] (by simp), keyword]
  · rw [terms _ ⟨["y", "y"]⟩ ["y"] (by simp), applied]

/-- A written sentence comes back from its text exactly if its names are symbols, that is, if the
lexer takes each for one name, and its applications have arguments.  With any stack it can be scoped
under the same condition, and the scoped sentence has the same text. -/
theorem printers_agree :
    (∀ s : Raw.Sentence, Raw.Sentence.parse s.print = .ok s ↔ s.Named) ∧
    (∀ x : Text, isSymbol x = true ↔ tokenize x = [.name x]) ∧
    (∀ (s : Raw.Sentence) (stack : Stack Text), (∃ u, (s.scope stack).1 = .ok u) ↔ s.Named) ∧
    ∀ (s : Raw.Sentence) (stack : Stack Text) (u : Sentence),
      (s.scope stack).1 = .ok u → u.print = s.print := by
  refine ⟨?_, ?_, ?_, ?_⟩
  · intro s
    exact Raw.Sentence.parse_print_iff
  · intro x
    exact isSymbol_iff_tokenize
  · intro s stack
    exact Raw.Sentence.exists_scope_iff
  · intro s stack u formed
    exact Raw.Sentence.print_of_scope formed

def nestedOperands : Raw.Sentence :=
  .quantified .universal "x"
    (.binary (.predicate "P" [.symbol "x", .application "f" [.symbol "true'"]]) .equivalence
      (.negation (.binary (.predicate "A" []) .conjunction
        (.quantified .existential "y" (.negation (.truth false))))))

/-- A sentence that comes back from its text and keeps it when scoped; with a name of two words it
would not come back. -/
theorem printers_agree_nestedOperands :
    nestedOperands.print = "FORALL x (P(x, f(true')) <=> -(A AND EXISTS y -false))" ∧
      Raw.Sentence.parse "FORALL x (P(x, f(true')) <=> -(A AND EXISTS y -false))" =
        .ok nestedOperands ∧
      (∃ u, (nestedOperands.scope ⟨["true'"]⟩).1 = .ok u ∧ u.print = nestedOperands.print) ∧
      ∀ q, Raw.Sentence.parse (Raw.Sentence.quantified q "A B" nestedOperands).print ≠
        .ok (.quantified q "A B" nestedOperands) := by
  rcases printers_agree with ⟨rereads, names, scopes, agrees⟩
  have printed : nestedOperands.print =
      "FORALL x (P(x, f(true')) <=> -(A AND EXISTS y -false))" := by decide +kernel
  have named : nestedOperands.Named := by
    simp only [nestedOperands, Raw.Sentence.Named, Raw.Term.AllNamed, Raw.Term.Named]
    decide
  refine ⟨printed, ?_, ?_, ?_⟩
  · rw [← printed]
    exact (rereads _).mpr named
  · rcases (scopes _ ⟨["true'"]⟩).mpr named with ⟨u, formed⟩
    exact ⟨u, formed, agrees _ _ _ formed⟩
  · intro q same
    have whole := (names "A B").mp ((rereads _).mp same).1
    exact absurd whole (by decide)

end ProofDesk.Logic
