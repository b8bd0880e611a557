import ProofDesk.Proofs.Limits.NaturalKinds

namespace ProofDesk.Limits

open Text (isName isName_iff isWord setOff not_mem_of_all)
open Statement (LegibleLeaf LegibleSide LegibleBody Legible)

namespace Statement

variable {ctx : Context} {gap : Text} {v : Statement}

theorem plain_indexed {x : Text} (valid : isName x = true) : Plain (x ++ indexSuffix) :=
  plain_of_isName (Template.isName_indexed valid)

theorem prepares_sequenceTerms {xs : List Text} (given : xs ≠ []) (valid : ∀ x ∈ xs, isName x = true) :
    Prepares (Natural.sequenceTerms xs) (Natural.sequenceTerms xs) ∧
      '$' ∉ Natural.sequenceTerms xs := by
  induction xs with
  | nil => exact absurd rfl given
  | cons x xs ih =>
    obtain ⟨validFirst, validRest⟩ := List.forall_mem_cons.mp valid
    have first := plain_indexed validFirst
    cases xs with
    | nil =>
      have single : Natural.sequenceTerms [x] = x ++ indexSuffix := by
        rw [Natural.sequenceTerms, Text.joinWith, List.map_singleton, List.intercalate_singleton]
      rw [single]
      exact ⟨.word first, first.dollar_not_mem⟩
    | cons y xs =>
      obtain ⟨prepares, absent⟩ := ih (List.cons_ne_nil _ _) validRest
      have comma := first.append (u := [',']) (by decide) (by decide)
      have shape : Natural.sequenceTerms (x :: y :: xs) =
          (x ++ indexSuffix ++ [',']) ++ ' ' :: Natural.sequenceTerms (y :: xs) := by
        simp [Natural.sequenceTerms, Text.joinWith, List.intercalate_cons_cons]
      rw [shape]
      refine ⟨.space (.word comma) prepares, ?_⟩
      rw [List.mem_append, List.mem_cons, not_or, not_or]
      exact ⟨comma.dollar_not_mem, by decide, absent⟩

theorem prepares_composedForm {op : Operation} {a b l m : Text}
    (valid : ∀ x ∈ [a, b, l, m], isName x = true) :
    Prepares ((Natural.composedForm [] op).fill [a, b, l, m])
      ((Natural.composedForm [' '] op).fill [a, b, l, m]) := by
  have sign : Prepares op.math op.math := by
    cases op <;> exact .word (by decide)
  have opening : Plain "\\left(" := by decide
  have closing : Prepares ('\\' :: "right)") ('\\' :: "right)") :=
    .word (by decide)
  have arrow : Prepares "\\rightarrow" "\\rightarrow" := .word (by decide)
  have term := Template.isName_indexed (valid a (by simp))
  have first := plain_of_isName term
  have second := plain_indexed (valid b (by simp))
  have start : Prepares ("\\left(" ++ (a ++ indexSuffix)) ("\\left(" ++ (a ++ indexSuffix)) :=
    .word (opening.append first.solid (Natural.not_mem_of_isName term (by decide)))
  have shape : (Natural.composedForm [] op).fill [a, b, l, m] = ("\\left(" ++ (a ++ indexSuffix)) ++
      ' ' :: (op.math ++ ' ' :: ((b ++ indexSuffix ++ '\\' :: "right)") ++
        ' ' :: ("\\rightarrow" ++ ' ' :: (l ++ ' ' :: (op.math ++ ' ' :: m))))) := by
    rw [Natural.fill_composedForm]
    simp [setOff]
  have shape' : (Natural.composedForm [' '] op).fill [a, b, l, m] =
      ("\\left(" ++ (a ++ indexSuffix)) ++
      ' ' :: (op.math ++ ' ' :: ((b ++ indexSuffix ++ ' ' :: '\\' :: "right)") ++
        ' ' :: ("\\rightarrow" ++ ' ' :: (l ++ ' ' :: (op.math ++ ' ' :: m))))) := by
    rw [Natural.fill_composedForm]
    simp [setOff]
  rw [shape, shape']
  exact start.space (sign.space ((Prepares.attach second (by decide) closing).space (arrow.space
    ((Prepares.name (valid l (by simp))).space (sign.space (.name (valid m (by simp))))))))

theorem Legible.prepares (legible : Legible ctx v) (other : v.kind ≠ .sequenceDeclaration) :
    Prepares (v.mathWith []) (v.mathWith [' ']) := by
  have colon : Prepares ":" ":" := .word (by decide)
  have member : Prepares "\\in" "\\in" := .word (by decide)
  cases legible with
  | identifier valid => exact .name valid
  | side side => exact side.prepares
  | body body => exact body.prepares
  | @conjunction l r left right =>
    have sign : Prepares "\\wedge" "\\wedge" := .word (by decide)
    have shape (gap : Text) : (Statement.conjunction l r).mathWith gap =
        l.mathWith gap ++ ' ' :: ("\\wedge" ++ ' ' :: r.mathWith gap) := by
      simp [mathWith_conjunction, setOff]
    rw [shape, shape]
    exact left.prepares.space (sign.space right.prepares)
  | sequenceDeclaration _ _ => exact absurd rfl other
  | @realDeclaration x valid =>
    have shape (gap : Text) : (Statement.realDeclaration x).mathWith gap =
        Natural.nameMath x ++ ' ' :: ("\\in" ++ ' ' :: "\\mathbb\x7bR\x7d") := rfl
    have shown : Plain (Natural.nameMath x) := by
      unfold Natural.nameMath
      split
      · decide
      · exact plain_of_isName valid
    rw [shape, shape]
    exact .space (.word shown) (member.space (.word (by decide)))
  | @naturalDeclaration x valid =>
    have shape (gap : Text) : (Statement.naturalDeclaration x).mathWith gap =
        x ++ ' ' :: ("\\in" ++ ' ' :: "\\mathbb\x7bN\x7d") := rfl
    rw [shape, shape]
    exact .space (.name valid) (member.space (.word (by decide)))
  | @limit seq l valid validLimit =>
    have arrow : Prepares "\\rightarrow" "\\rightarrow" := .word (by decide)
    have shape (gap : Text) : (Statement.limit seq l).mathWith gap =
        (seq ++ indexSuffix) ++ ' ' :: ("\\rightarrow" ++ ' ' :: l) := by
      have filled : (Statement.limit seq l).mathWith gap =
        (seq ++ indexSuffix) ++ (setOff "\\rightarrow" ++ (l ++ [])) := rfl
      simp [filled, setOff]
    rw [shape, shape]
    exact .space (.word (plain_indexed valid)) (arrow.space (.name validLimit))
  | composedLimit _ valid => exact prepares_composedForm valid
  | thereIs valid body =>
    have quantifier : Prepares "\\exists" "\\exists" := .word (by decide)
    rw [mathWith_thereIs, mathWith_thereIs]
    exact quantifier.space (.space (.name valid) (colon.space body.prepares))

theorem prepares_sequences {xs : List Text} (given : xs ≠ []) (valid : ∀ x ∈ xs, isName x = true) :
    Prepares ((sequenceDeclaration xs).natural false) ((sequenceDeclaration xs).natural false) := by
  obtain ⟨prepares, absent⟩ := prepares_sequenceTerms given valid
  have shape : (sequenceDeclaration xs).natural false = ("$" ++ (Natural.sequenceTerms xs ++ "$")) ++
      ' ' :: ("are" ++ ' ' :: ("real-valued" ++ ' ' :: "sequences")) := by
    have written : (sequenceDeclaration xs).natural false =
      (("$" ++ Natural.sequenceTerms xs) ++ "$") ++ (' ' :: "are real-valued sequences") := rfl
    rw [written, List.append_assoc "$".toList]
    rfl
  have are : Prepares "are" "are" := .word (by decide)
  rw [shape]
  exact .space (prepares.enclosed absent)
    (are.space (.space (.word (by decide)) (.word (by decide))))

theorem Legible.prepare_natural (legible : Legible ctx v) :
    prepare (v.natural false) = v.naturalWith [' '] := by
  by_cases sequences : v.kind = .sequenceDeclaration
  · cases v with
    | sequenceDeclaration xs =>
      cases legible with
      | side side =>
        cases side with
        | leaf leaf => cases leaf
      | body body => cases body
      | sequenceDeclaration given valid => exact (prepares_sequences given valid).prepare_eq
    | _ => cases sequences
  · have enclosed := (legible.prepares sequences).enclosed
      (legible.dollar_not_mem (Or.inl rfl) sequences)
    rw [← naturalWith_nil, v.naturalWith_eq [] sequences, v.naturalWith_eq [' '] sequences]
    exact enclosed.prepare_eq

/-- No reader but that of its own kind takes what a statement is shown as, with or without gaps, unless
that may be a term of a sequence. -/
theorem Legible.readNatural?_of_apart (either : gap = [] ∨ gap = [' ']) (legible : Legible ctx v)
    {kinds : List Kind} (member : v.kind ∈ kinds) (apart : v.kind ∉ Kind.naturalTwins) :
    Limits.readNatural? kinds ctx false (v.naturalWith gap) = some (v, ctx.declare v) := by
  have own := legible.natural? either
  apply read_eq_some_of_only member own
  intro k found
  by_contra different
  have both := (Kind.reads_natural_both_iff different).mp ⟨found, Option.isSome_of_eq_some own⟩
  exact apart both.2.2

theorem Legible.readNatural?_hypotheses (either : gap = [] ∨ gap = [' ']) (legible : Legible ctx v)
    (kind : v.kind ∈ Kind.hypotheses) :
    Limits.readNatural? Kind.hypotheses ctx false (v.naturalWith gap) = some (v, ctx.declare v) := by
  have apart : ∀ k ∈ Kind.hypotheses, k ∉ Kind.naturalTwins := by decide
  exact legible.readNatural?_of_apart either kind (apart v.kind kind)

theorem Legible.readNatural?_goals (either : gap = [] ∨ gap = [' ']) (legible : Legible ctx v)
    (kind : v.kind ∈ Kind.goals) :
    Limits.readNatural? Kind.goals ctx false (v.naturalWith gap) = some (v, ctx.declare v) := by
  have apart : ∀ k ∈ Kind.goals, k ∉ Kind.naturalTwins := by decide
  exact legible.readNatural?_of_apart either kind (apart v.kind kind)

end Statement
end ProofDesk.Limits
