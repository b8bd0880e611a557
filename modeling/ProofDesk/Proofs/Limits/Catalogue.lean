import ProofDesk.Proofs.Limits.Candidates

namespace ProofDesk.Limits

variable {ctx : Context} {s : Text}

namespace TacticKind

theorem readNatural?_perm {ks ks' : List TacticKind} (perm : ks.Perm ks') :
    (ks.findSome? fun k => k.readNatural? ctx s) = ks'.findSome? fun k => k.readNatural? ctx s := by
  apply findSome?_eq_of_perm perm
  intro k k' found found'
  rw [readNatural?, Option.isSome_map] at found found'
  exact eq_of_natural? found found'

theorem readFormal?_perm {ks ks' : List TacticKind} (perm : ks.Perm ks') :
    (ks.findSome? fun k => k.readFormal? ctx s) = ks'.findSome? fun k => k.readFormal? ctx s := by
  apply findSome?_eq_of_perm perm
  intro k k' found found'
  rw [readFormal?, Option.isSome_map] at found found'
  exact eq_of_formal? found found'

end TacticKind

theorem readFormal?_reordered {ks ks' : List Kind} (same : Reordered Kind.formalTwins ks ks') :
    readFormal? ks ctx s = readFormal? ks' ctx s := by
  apply findSome?_eq_of_reordered same
  intro k k' different both
  rw [Kind.readFormal?, Kind.readFormal?, Option.isSome_map, Option.isSome_map] at both
  exact ((Kind.reads_formal_both_iff different).mp both).2

theorem readNatural?_reordered {inMath : Bool} {ks ks' : List Kind}
    (same : Reordered Kind.naturalTwins ks ks') :
    readNatural? ks ctx inMath s = readNatural? ks' ctx inMath s := by
  apply findSome?_eq_of_reordered same
  intro k k' different both
  rw [Kind.readNatural?, Kind.readNatural?, Option.isSome_map, Option.isSome_map] at both
  exact ((Kind.reads_natural_both_iff different).mp both).2

theorem readIdent?_perm {ks : List Kind} (perm : ks.Perm [Kind.epsilon, .identifier]) :
    (ks.findSome? fun k => k.natural? ctx true s) = Natural.readIdent? s := by
  have listed : ([Kind.epsilon, .identifier].findSome? fun k => k.natural? ctx true s) =
      Natural.readIdent? s := by
    rw [findSome?_cons_or, findSome?_cons_or, List.findSome?_nil, Option.or_none]
    rfl
  have same : Reordered Kind.naturalTwins ks [Kind.epsilon, .identifier] := by
    refine ⟨perm, ?_⟩
    have only : (ks.filter (· ∈ Kind.naturalTwins)).Perm [Kind.identifier] :=
      perm.filter (· ∈ Kind.naturalTwins)
    exact List.perm_singleton.mp only
  rw [← listed]
  apply findSome?_eq_of_reordered same
  intro k k' different both
  exact ((Kind.reads_natural_both_iff different).mp both).2

/-- One text, in natural language and in formal text: for how many kinds it is, and what the order of
the candidates changes. -/
structure CatalogueUnambiguous (ctx : Context) (inMath : Bool) (s : Text) : Prop where
  naturalTactic : ∀ k k' : TacticKind,
    (k.natural? ctx s).isSome → (k'.natural? ctx s).isSome → k = k'
  formalTactic : ∀ k k' : TacticKind,
    (k.formal? ctx s).isSome → (k'.formal? ctx s).isSome → k = k'
  formal : ∀ k k' : Kind, k ≠ k' → ((k.formal? ctx s).isSome ∧ (k'.formal? ctx s).isSome ↔
    s = ("ε" : Text) ∧ k ∈ [Kind.epsilon, .identifier] ∧ k' ∈ [Kind.epsilon, .identifier])
  natural : ∀ k k' : Kind, k ≠ k' →
    ((k.natural? ctx inMath s).isSome ∧ (k'.natural? ctx inMath s).isSome ↔
      (∃ t, Natural.inside? inMath s = some t ∧ Natural.IsTerm ctx t) ∧
        k ∈ [Kind.application, .identifier] ∧ k' ∈ [Kind.application, .identifier])
  naturalTacticOrder : ∀ ks ks' : List TacticKind, ks.Perm ks' →
    (ks.findSome? fun k => k.readNatural? ctx s) = ks'.findSome? fun k => k.readNatural? ctx s
  formalTacticOrder : ∀ ks ks' : List TacticKind, ks.Perm ks' →
    (ks.findSome? fun k => k.readFormal? ctx s) = ks'.findSome? fun k => k.readFormal? ctx s
  formalOrder : ∀ ks ks' : List Kind, Reordered [Kind.epsilon, .identifier] ks ks' →
    readFormal? ks ctx s = readFormal? ks' ctx s
  naturalOrder : ∀ ks ks' : List Kind, Reordered [Kind.application, .identifier] ks ks' →
    readNatural? ks ctx inMath s = readNatural? ks' ctx inMath s
  /-- Nor does the order count in which the parts of a statement are tried. -/
  formalParts : ∀ c : Candidates, c.Reorders [Kind.epsilon, .identifier] → ∀ k : Kind,
    k.formalFrom? c ctx s = k.formal? ctx s
  naturalParts : ∀ c : Candidates, c.Reorders [Kind.application, .identifier] → ∀ k : Kind,
    k.naturalFrom? c ctx inMath s = k.natural? ctx inMath s
  identifiers : ∀ ks : List Kind, ks.Perm [Kind.epsilon, .identifier] →
    (ks.findSome? fun k => k.natural? ctx true s) = Natural.readIdent? s

/-- No text is for two kinds of tactics, in natural language or in formal text.  None is for two kinds
of statements, except that the letter of the tolerance is a name too in formal text, and a term of a
known sequence in natural language.  Reordering candidates other than these pairs changes nothing. -/
theorem catalogue_unambiguous (ctx : Context) (inMath : Bool) (s : Text) :
    CatalogueUnambiguous ctx inMath s where
  naturalTactic _ _ := TacticKind.eq_of_natural?
  formalTactic _ _ := TacticKind.eq_of_formal?
  formal _ _ := Kind.reads_formal_both_iff
  natural _ _ := Kind.reads_natural_both_iff
  naturalTacticOrder _ _ := TacticKind.readNatural?_perm
  formalTacticOrder _ _ := TacticKind.readFormal?_perm
  formalOrder _ _ := readFormal?_reordered
  naturalOrder _ _ := readNatural?_reordered
  formalParts _ := Kind.formalFrom?_eq
  naturalParts _ same k := Kind.naturalFrom?_eq same k inMath
  identifiers _ := readIdent?_perm

/-- The two pairs are exceptions: there the first candidate decides. -/
example : readFormal? [.epsilon, .identifier] .empty "ε" ≠
    readFormal? [.identifier, .epsilon] .empty "ε" := by
  decide

example : readNatural? [.application, .identifier] (Context.empty.add "a" .sequence) true "a_n" ≠
    readNatural? [.identifier, .application] (Context.empty.add "a" .sequence) true "a_n" := by
  decide

end ProofDesk.Limits
