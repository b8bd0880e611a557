import ProofDesk.Proofs.Logic.Printing
import ProofDesk.Proofs.Logic.Scoping

namespace ProofDesk.Logic

/-! The printer writes variables and constants alike. -/

theorem printArguments_cons (t : Raw.Term) {us : List Raw.Term} (given : us ≠ []) :
    Raw.Term.printArguments (t :: us) = t.print ++ ", " ++ Raw.Term.printArguments us := by
  cases us with
  | nil => exact absurd rfl given
  | cons u us =>
    rw [Raw.Term.printArguments, Raw.Term.printFurther, Raw.Term.printArguments, List.append_assoc,
      List.append_assoc]

theorem Arguments.raw_ne_nil (ts : Arguments) : ts.raw ≠ [] := by
  cases ts <;> simp [Arguments.raw]

mutual

theorem Term.print_raw : ∀ t : Term, t.raw.print = t.print
  | .const c => by rw [Term.raw, Raw.Term.print, Term.print]
  | .var x => by rw [Term.raw, Raw.Term.print, Term.print]
  | .app f ts => by rw [Term.raw, Raw.Term.print, Term.print, Arguments.print_raw ts]

theorem Arguments.print_raw : ∀ ts : Arguments, Raw.Term.printArguments ts.raw = ts.print
  | .one t => by
    rw [Arguments.raw, Raw.Term.printArguments, Raw.Term.printFurther, List.append_nil,
      Term.print_raw t, Arguments.print]
  | .cons t ts => by
    rw [Arguments.raw, printArguments_cons _ ts.raw_ne_nil, Term.print_raw t,
      Arguments.print_raw ts, Arguments.print]

end

theorem Sentence.isBinary_raw (s : Sentence) : s.raw.isBinary = s.isBinary := by
  cases s <;> rfl

theorem Sentence.print_raw (s : Sentence) : s.raw.print = s.print := by
  induction s with
  | truth b => cases b <;> rfl
  | proposition p => rfl
  | predicate p ts =>
    calc (predicate p ts).raw.print = p.name ++ "(" ++ Raw.Term.printArguments ts.raw ++ ")" := by
          cases ts <;> rfl
      _ = p.name ++ "(" ++ ts.print ++ ")" := by rw [Arguments.print_raw]
  | negation s ih =>
    calc (negation s).raw.print = "-" ++ enclose s.raw.isBinary s.raw.print := rfl
      _ = "-" ++ enclose s.isBinary s.print := by rw [ih, isBinary_raw]
  | binary c l r ihl ihr =>
    calc (binary c l r).raw.print = enclose l.raw.isBinary l.raw.print ++ " " ++ c.print ++ " " ++
          enclose r.raw.isBinary r.raw.print := rfl
      _ = enclose l.isBinary l.print ++ " " ++ c.print ++ " " ++ enclose r.isBinary r.print := by
          rw [ihl, ihr, isBinary_raw, isBinary_raw]
  | quantified q x s ih =>
    calc (quantified q x s).raw.print = q.print ++ " " ++ x.name ++ " " ++
          enclose s.raw.isBinary s.raw.print := rfl
      _ = q.print ++ " " ++ x.name ++ " " ++ enclose s.isBinary s.print := by
          rw [ih, isBinary_raw]

mutual

theorem Term.named_raw : ∀ t : Term, t.raw.Named
  | .const c => c.valid
  | .var x => x.valid
  | .app f ts => ⟨f.valid, Arguments.raw_ne_nil ts, Arguments.named_raw ts⟩

theorem Arguments.named_raw : ∀ ts : Arguments, Raw.Term.AllNamed ts.raw
  | .one t => ⟨Term.named_raw t, trivial⟩
  | .cons t ts => ⟨Term.named_raw t, Arguments.named_raw ts⟩

end

theorem Sentence.named_raw (s : Sentence) : s.raw.Named := by
  induction s with
  | truth b => trivial
  | proposition p => exact ⟨p.valid, trivial⟩
  | predicate p ts => exact ⟨p.valid, Arguments.named_raw ts⟩
  | negation s ih => exact ih
  | binary c l r ihl ihr => exact ⟨ihl, ihr⟩
  | quantified q x s ih => exact ⟨x.valid, ih⟩

mutual

theorem Term.reclassify_eq_self_iff {bound : List Text} :
    ∀ t : Term, t.reclassify bound = t ↔ t.WellScoped bound
  | .const c => by
    rw [Term.reclassify, Term.WellScoped]
    by_cases member : c.name ∈ bound <;> simp [member]
  | .var x => by
    rw [Term.reclassify, Term.WellScoped]
    by_cases member : x.name ∈ bound <;> simp [member]
  | .app f ts => by
    rw [Term.reclassify, Term.WellScoped, Term.app.injEq, Arguments.reclassify_eq_self_iff ts]
    exact and_iff_right rfl

theorem Arguments.reclassify_eq_self_iff {bound : List Text} :
    ∀ ts : Arguments, ts.reclassify bound = ts ↔ ts.WellScoped bound
  | .one t => by
    rw [Arguments.reclassify, Arguments.WellScoped, Arguments.one.injEq,
      Term.reclassify_eq_self_iff t]
  | .cons t ts => by
    rw [Arguments.reclassify, Arguments.WellScoped, Arguments.cons.injEq,
      Term.reclassify_eq_self_iff t, Arguments.reclassify_eq_self_iff ts]

end

theorem Sentence.reclassify_eq_self_iff (s : Sentence) (bound : List Text) :
    s.reclassify bound = s ↔ s.WellScoped bound := by
  induction s generalizing bound with
  | truth b => exact iff_of_true rfl trivial
  | proposition p => exact iff_of_true rfl trivial
  | predicate p ts =>
    rw [Sentence.reclassify, Sentence.WellScoped, Sentence.predicate.injEq,
      Arguments.reclassify_eq_self_iff ts]
    exact and_iff_right rfl
  | negation s ih => rw [Sentence.reclassify, Sentence.WellScoped, Sentence.negation.injEq, ih]
  | binary c l r ihl ihr =>
    rw [Sentence.reclassify, Sentence.WellScoped, Sentence.binary.injEq, ihl, ihr]
    exact and_iff_right rfl
  | quantified q x s ih =>
    rw [Sentence.reclassify, Sentence.WellScoped, Sentence.quantified.injEq, ih]
    simp

mutual

theorem Term.reclassify_congr {bound bound' : List Text} (same : ∀ x, x ∈ bound ↔ x ∈ bound') :
    ∀ t : Term, t.reclassify bound = t.reclassify bound'
  | .const c => by simp only [Term.reclassify, same]
  | .var x => by simp only [Term.reclassify, same]
  | .app f ts => by
    rw [Term.reclassify, Term.reclassify, Arguments.reclassify_congr same ts]

theorem Arguments.reclassify_congr {bound bound' : List Text}
    (same : ∀ x, x ∈ bound ↔ x ∈ bound') :
    ∀ ts : Arguments, ts.reclassify bound = ts.reclassify bound'
  | .one t => by
    rw [Arguments.reclassify, Arguments.reclassify, Term.reclassify_congr same t]
  | .cons t ts => by
    rw [Arguments.reclassify, Arguments.reclassify, Term.reclassify_congr same t,
      Arguments.reclassify_congr same ts]

end

theorem Sentence.parse_print (s : Sentence) : Sentence.parse s.print = .ok (s.reclassify []) := by
  have read := Raw.Sentence.parse_print s.raw s.named_raw
  rw [Sentence.print_raw] at read
  have scope := Raw.Sentence.scope_eq_classify s.raw .empty
  rw [Sentence.parse, read]
  change ((s.raw.scope .empty).1).mapError ReadError.formation = _
  rw [scope, Sentence.classify_raw]
  rfl

theorem elements_foldl_push (bound : List Text) (s : Stack Text) :
    (bound.foldl Stack.push s).elements = bound.reverse ++ s.elements := by
  induction bound generalizing s with
  | nil => rfl
  | cons x bound ih =>
    rw [List.foldl_cons, ih, List.reverse_cons, List.append_assoc]
    rfl

theorem Term.parse_print (t : Term) (bound : List Text) :
    Term.parse t.print bound = .ok (t.reclassify bound) := by
  have read := Raw.Term.parse_print t.raw t.named_raw
  rw [Term.print_raw] at read
  have names (x : Text) : x ∈ (bound.foldl Stack.push .empty).elements ↔ x ∈ bound := by
    rw [elements_foldl_push]
    simp [Stack.empty]
  rw [Term.parse, read]
  change ((t.raw.scope (bound.foldl .push .empty)).1).mapError ReadError.formation = _
  rw [Raw.Term.scope_eq_classify, Term.classify_raw, Term.reclassify_congr names]
  rfl

theorem Sentence.wellScoped_of_parse {text : Text} {s : Sentence}
    (read : Sentence.parse text = .ok s) : s.WellScoped [] := by
  unfold Sentence.parse at read
  cases parsed : Raw.Sentence.parse text with
  | error e =>
    rw [parsed] at read
    cases read
  | ok r =>
    rw [parsed] at read
    have classified := mapError_eq_ok_iff.mp read
    rw [Raw.Sentence.scope_eq_classify] at classified
    exact (Sentence.classify_eq_ok classified).2

/-- Printing and reading again gives each name the class that its place asks for, which changes
nothing exactly if the names had it before; and all that is read has it. -/
theorem text_roundTrip :
    (∀ s : Sentence, Sentence.parse s.print = .ok (s.reclassify []) ∧
      (Sentence.parse s.print = .ok s ↔ s.WellScoped [])) ∧
    (∀ (text : Text) (s : Sentence), Sentence.parse text = .ok s → s.WellScoped []) ∧
    ∀ (t : Term) (bound : List Text), Term.parse t.print bound = .ok (t.reclassify bound) ∧
      (Term.parse t.print bound = .ok t ↔ t.WellScoped bound) := by
  refine ⟨fun s => ⟨s.parse_print, ?_⟩, fun text s => Sentence.wellScoped_of_parse,
    fun t bound => ⟨t.parse_print bound, ?_⟩⟩
  · rw [Sentence.parse_print, Except.ok.injEq, Sentence.reclassify_eq_self_iff]
  · rw [Term.parse_print, Except.ok.injEq, Term.reclassify_eq_self_iff]

def constantAndVariable : Sentence :=
  .quantified .universal ⟨"x", by decide⟩ (.predicate ⟨"P", by decide⟩
    (.cons (.var ⟨"x", by decide⟩) (.one (.const ⟨"c", by decide⟩))))

theorem text_roundTrip_constantAndVariable :
    constantAndVariable.print = "FORALL x P(x, c)" ∧
      Sentence.parse "FORALL x P(x, c)" = .ok constantAndVariable ∧
      constantAndVariable.WellScoped [] := by
  have printed : constantAndVariable.print = "FORALL x P(x, c)" := by decide
  have free : ("c" : Text) ∉ [("x" : Text)] := by decide
  have placed : constantAndVariable.WellScoped [] := ⟨List.mem_cons_self, free⟩
  have read : Sentence.parse "FORALL x P(x, c)" = .ok constantAndVariable := by
    rw [← printed]
    exact (text_roundTrip.1 constantAndVariable).2.mpr placed
  exact ⟨printed, read, text_roundTrip.2.1 _ _ read⟩

end ProofDesk.Logic
