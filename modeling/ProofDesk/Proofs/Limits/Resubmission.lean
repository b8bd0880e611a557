import ProofDesk.Proofs.Limits.Rebuilding
import ProofDesk.Proofs.Limits.TacticInverse

namespace ProofDesk.Limits

variable {ctx ctx' : Context} {text : Text}

theorem legible_of_readNatural? {kinds : List Kind} {v : Statement}
    (read : readNatural? kinds ctx false text = some (v, ctx')) :
    v.kind ∈ kinds ∧ ctx' = ctx.declare v ∧ v.Legible ctx := by
  obtain ⟨k, member, found, left⟩ := exists_kind_of_read read
  obtain ⟨rfl, legible⟩ := Kind.legible_of_natural? found
  exact ⟨member, left, legible⟩

theorem Tactic.legible_of_readNatural? {t : Tactic}
    (read : Tactic.readNatural? ctx text = some (t, ctx')) :
    ctx' = ctx.afterNatural t ∧ t.Legible ctx := by
  obtain ⟨k, -, found, left⟩ := exists_kind_of_read read
  obtain ⟨-, legible, -⟩ := TacticKind.found_of_natural? found
  exact ⟨left, legible⟩

theorem Tactic.Legible.prepare_natural {t : Tactic} (legible : t.Legible ctx) :
    prepare t.natural = t.naturalWith [' '] := by
  rw [← Tactic.naturalWith_nil]
  exact legible.prepares.prepare_eq

namespace Session

variable {s s' : Session}

theorem addHypothesis_shown (added : s.addHypothesis text = .ok s') :
    ∃ v, s'.hypotheses = s.hypotheses ++ [v] ∧ s.addHypothesis (v.natural false) = .ok s' := by
  obtain ⟨v, ctx, read, rfl⟩ := addHypothesis_eq_ok added
  obtain ⟨member, rfl, legible⟩ := legible_of_readNatural? read
  refine ⟨v, rfl, ?_⟩
  rw [addHypothesis, legible.prepare_natural, legible.readNatural?_hypotheses (Or.inr rfl) member]

theorem setGoal_shown (set : s.setGoal text = .ok s') :
    ∃ v, s'.goal = some v ∧ s.setGoal (v.natural false) = .ok s' := by
  obtain ⟨v, ctx, read, rfl⟩ := setGoal_eq_ok set
  obtain ⟨member, rfl, legible⟩ := legible_of_readNatural? read
  refine ⟨v, rfl, ?_⟩
  rw [setGoal, legible.prepare_natural, legible.readNatural?_goals (Or.inr rfl) member]

theorem addLine_shown (added : s.addLine text = .ok s') :
    ∃ t, s'.proof = s.proof ++ [⟨t, s'.context⟩] ∧ s.addLine t.natural = .ok s' := by
  have goal : s.goal.isNone = false := by
    by_contra unset
    rw [addLine, if_pos (by simpa using unset)] at added
    cases added
  obtain ⟨t, ctx, read, rfl⟩ := addLine_eq_ok added
  obtain ⟨rfl, legible⟩ := Tactic.legible_of_readNatural? read
  refine ⟨t, rfl, ?_⟩
  rw [addLine, goal, legible.prepare_natural, legible.readNatural?_all (Or.inr rfl)]
  rfl

/-- Whatever a session accepts it accepts again in the form in which it is shown, and that leads to
the same session. -/
theorem accepts_shown (s : Session) (text : Text) (s' : Session) :
    (s.addHypothesis text = .ok s' →
      ∃ v, s'.hypotheses = s.hypotheses ++ [v] ∧ s.addHypothesis (v.natural false) = .ok s') ∧
    (s.setGoal text = .ok s' →
      ∃ v, s'.goal = some v ∧ s.setGoal (v.natural false) = .ok s') ∧
    (s.addLine text = .ok s' →
      ∃ t, s'.proof = s.proof ++ [⟨t, s'.context⟩] ∧ s.addLine t.natural = .ok s') :=
  ⟨addHypothesis_shown, setGoal_shown, addLine_shown⟩

/-- Bars and parentheses may be spaced apart and indices left out, but are shown in one way. -/
theorem accepts_shown_variants :
    (∃ s', (start "t").addHypothesis "$\\forall n : \\left| b - l \\right| < \\epsilon$" = .ok s' ∧
      (start "t").addHypothesis ((Statement.forAll "n" (.inequality
        (.distance (.identifier "b") (.identifier "l")) .lt .epsilon)).natural false) = .ok s') ∧
    (∃ s', (start "t").setGoal "$\\left(a_n + b_n \\right) \\rightarrow l + m$" = .ok s' ∧
      (start "t").setGoal ((Statement.composedLimit "a" "b" .add "l" "m").natural false) = .ok s') ∧
    (∃ s', fixedTolerance.addLine "Let $N = \\max \\left(K, M\\right)$" = .ok s' ∧
      fixedTolerance.addLine (Tactic.letMax "N" "K" "M").natural = .ok s') := by
  let v : Statement := .forAll "n"
    (.inequality (.distance (.identifier "b") (.identifier "l")) .lt .epsilon)
  let g : Statement := .composedLimit "a" "b" .add "l" "m"
  let t : Tactic := .letMax "N" "K" "M"
  let ctx : Context := { goal := some g }
  let proof := fixedTolerance.proof ++ [⟨t, fixedTolerance.context⟩]
  have ⟨added, set, line⟩ :
      (start "t").addHypothesis "$\\forall n : \\left| b - l \\right| < \\epsilon$" =
        .ok { name := "t", hypotheses := [v] } ∧
      (start "t").setGoal "$\\left(a_n + b_n \\right) \\rightarrow l + m$" =
        .ok { name := "t", goal := some g, initialContext := ctx, context := ctx } ∧
      fixedTolerance.addLine "Let $N = \\max \\left(K, M\\right)$" =
        .ok { fixedTolerance with proof := proof } := by decide +kernel
  obtain ⟨w, entry, shown⟩ := (accepts_shown _ _ _).1 added
  cases entry
  obtain ⟨w, entry, shownGoal⟩ := (accepts_shown _ _ _).2.1 set
  cases entry
  obtain ⟨w, entry, shownLine⟩ := (accepts_shown _ _ _).2.2 line
  obtain rfl : t = w := (ProofLine.mk.inj (List.singleton_inj.mp (List.append_cancel_left entry))).1
  exact ⟨⟨_, added, shown⟩, ⟨_, set, shownGoal⟩, ⟨_, line, shownLine⟩⟩

end Session
end ProofDesk.Limits
