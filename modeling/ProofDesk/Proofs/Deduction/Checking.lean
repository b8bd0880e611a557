import ProofDesk.Proofs.Deduction.Positions

namespace ProofDesk.Deduction.Proof

open Logic (Sentence)

variable {p : Proof}

@[simp]
theorem resolveOne_sentence {position : Path} {a s : Sentence} :
    p.resolveOne position (.sentence a) = .ok s ↔ a = s := by
  simp [resolveOne]

@[simp]
theorem resolveOne_path {position cited : Path} {s : Sentence} :
    p.resolveOne position (.path cited) = .ok s ↔
      cited.inScope position = true ∧ ∃ q, p.at? cited = some q ∧ q.sentence = s := by
  by_cases visible : cited.inScope position = true
  · cases found : p.at? cited <;> simp [resolveOne, visible, get, found, Except.map]
  · simp [resolveOne, visible]

theorem resolve_eq_ok {position : Path} {antecedents : List Antecedent} {ss : List Sentence} :
    p.resolve position antecedents = .ok ss ↔
      List.Forall₂ (fun a s => p.resolveOne position a = .ok s) antecedents ss :=
  mapM_eq_ok_iff

theorem exists_antecedent_of_resolve {position : Path} {antecedents : List Antecedent}
    {ss : List Sentence} (resolved : p.resolve position antecedents = .ok ss) {s : Sentence}
    (member : s ∈ ss) : ∃ a ∈ antecedents, p.resolveOne position a = .ok s := by
  have pairs := resolve_eq_ok.mp resolved
  clear resolved
  induction pairs with
  | nil => simp at member
  | cons first rest ih =>
    rcases List.mem_cons.mp member with rfl | member
    · exact ⟨_, List.mem_cons_self, first⟩
    · obtain ⟨a, inside, this⟩ := ih member
      exact ⟨a, List.mem_cons_of_mem _ inside, this⟩

theorem resolve_head {position : Path} {a : Antecedent} {antecedents : List Antecedent}
    {ss : List Sentence} (resolved : p.resolve position antecedents = .ok ss)
    (first : antecedents.head? = some a) :
    ∃ s, ss.head? = some s ∧ p.resolveOne position a = .ok s := by
  have pairs := resolve_eq_ok.mp resolved
  cases pairs with
  | nil => simp at first
  | cons head rest =>
    obtain rfl := Option.some.inj first
    exact ⟨_, rfl, head⟩

theorem derive_eq_ok {position : Path} {j : Justification} {s : Sentence} :
    p.derive position j = .ok s ↔ ∃ ss, p.resolve position j.antecedents = .ok ss ∧
      j.rule.apply ss j.arguments = .ok (some s) := by
  unfold derive
  simp only [bind_eq_ok_iff]
  refine exists_congr fun ss => and_congr_right fun _ => ?_
  cases j.rule.apply ss j.arguments with
  | error e => simp
  | ok derived => cases derived <;> simp

theorem verify_eq (p : Proof) (path : Path) : p.verify path =
    match p.at? path with
    | none => .error (.invalidPosition path)
    | some (.node _ none _) => .error (.unjustified path)
    | some (.node s (some j) _) =>
      if j.rule.isAssumption then .ok ()
      else match p.derive path j with
        | .error e => .error e
        | .ok derived => if derived = s then .ok () else .error (.mismatch path derived) := by
  unfold verify get
  cases p.at? path with
  | none => rfl
  | some q =>
    rcases q with ⟨s, j, ps⟩
    cases j with
    | none => rfl
    | some j =>
      change (if j.rule.isAssumption = true then .ok ()
        else p.derive path j >>= fun derived =>
          if derived = s then .ok () else .error (.mismatch path derived)) = _
      dsimp only
      cases p.derive path j <;> rfl

theorem verify_eq_ok {path : Path} {u : Unit} : p.verify path = .ok u ↔
    ∃ s j ps, p.at? path = some (.node s (some j) ps) ∧
      (j.rule.isAssumption = true ∨ p.derive path j = .ok s) := by
  rw [verify_eq]
  cases p.at? path with
  | none => simp
  | some q =>
    rcases q with ⟨s, j, ps⟩
    cases j with
    | none => simp
    | some j =>
      by_cases assumed : j.rule.isAssumption = true
      · simp [assumed]
      · cases derivation : p.derive path j with
        | error e => simp [assumed, derivation]
        | ok derived => simp [assumed, derivation]

theorem isVerified_iff {path : Path} :
    p.isVerified path = true ↔ p.verify path = .ok () := by
  unfold isVerified
  cases p.verify path <;> simp [Except.isOk, Except.toBool]

theorem check_iff {path : Path} : p.check path = true ↔ (p.at? path).isSome ∧
    ∀ below, path <+: below → (p.at? below).isSome → p.verify below = .ok () := by
  have members (below : Path) (q : Proof) :
      (below, q) ∈ (p.nodes.filter fun node => path.leadsTo node.1) ↔
        p.at? below = some q ∧ path <+: below := by
    rw [List.mem_filter, mem_nodes, Path.leadsTo_iff]
  have nodes : p.check path = (!(p.nodes.filter fun node => path.leadsTo node.1).isEmpty &&
      (p.nodes.filter fun node => path.leadsTo node.1).all fun node => p.isVerified node.1) := rfl
  simp only [nodes, Bool.and_eq_true, Bool.not_eq_true', List.isEmpty_eq_false_iff_exists_mem,
    List.all_eq_true, Prod.exists, Prod.forall, members, isVerified_iff]
  constructor
  · rintro ⟨⟨below, q, found, before⟩, valid⟩
    refine ⟨at?_isSome_above before (by simp [found]), ?_⟩
    intro below before present
    rcases Option.isSome_iff_exists.mp present with ⟨q, found⟩
    exact valid below q ⟨found, before⟩
  · rintro ⟨present, valid⟩
    rcases Option.isSome_iff_exists.mp present with ⟨q, found⟩
    refine ⟨⟨path, q, found, List.prefix_refl path⟩, ?_⟩
    intro below r inside
    exact valid below inside.2 (by simp [inside.1])

end ProofDesk.Deduction.Proof
