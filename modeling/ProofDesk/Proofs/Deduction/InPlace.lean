import ProofDesk.Deduction.Update
import ProofDesk.Proofs.Deduction.Simulation

/-!
Insertions in place do what the insertions do that give a new proof.  Whatever can fail does so
before the first change, so a failed insertion leaves the proof as it was.
-/

namespace ProofDesk.Deduction

open Logic (Sentence)

namespace Update

variable {α β : Type} {a : Arena}

@[simp]
theorem on_pure (x : α) : (pure x : Update α).on a = (.ok x, a) := rfl

@[simp]
theorem on_throw (e : ProofError) : (throw e : Update α).on a = (.error e, a) := rfl

@[simp]
theorem on_ask (question : Arena → Except ProofError α) : (ask question).on a = (question a, a) := rfl

@[simp]
theorem on_change (f : Arena → Arena) : (change f).on a = (.ok ⟨⟩, f a) := rfl

theorem on_bind (u : Update α) (f : α → Update β) : (u >>= f).on a =
    match u.on a with
    | (.ok x, after) => (f x).on after
    | (.error e, after) => (.error e, after) := by
  change (ExceptT.bindCont f (u.on a).1 : StateM Arena _) (u.on a).2 = _
  rcases u.on a with ⟨_ | _, after⟩ <;> rfl

theorem on_ask_bind (question : Arena → Except ProofError α) (f : α → Update β) :
    (ask question >>= f).on a =
      match question a with
      | .ok x => (f x).on a
      | .error e => (.error e, a) := by
  rw [on_bind, on_ask]
  cases question a <;> rfl

/-- A child that cannot be put in is noticed before anything is renumbered. -/
theorem insertAt_on (s : Sentence) (parent : Path) (index : Nat) (a : Arena) :
    (insertAt s parent index).on a = settled a (a.insertAt s parent index) := by
  unfold insertAt Arena.insertAt
  rw [on_ask_bind]
  cases a.find parent with
  | error e => rfl
  | ok parentId =>
    dsimp only
    rw [on_ask_bind]
    cases counted : a.childCount parent with
    | error e => rfl
    | ok count =>
      by_cases outside : count < index
      · simp only [if_pos outside, on_bind, on_throw]
        simp [bind, Except.bind, outside, settled]
      · simp only [if_neg outside, on_bind, on_pure, on_change, on_ask]
        simp [bind, Except.bind, outside, settled, pure, Except.pure, Arena.renumber]

theorem insert_on (s : Sentence) (parent : Path) (a : Arena) :
    (insert s parent).on a = settled a (a.insert s parent) := by
  unfold insert Arena.insert
  rw [on_ask_bind]
  cases a.childCount parent with
  | error e => rfl
  | ok count => exact insertAt_on s parent count a

theorem insertDerived_on {p : Proof} (stores : a.Stores p) (parent : Path) (j : Justification) :
    (insertDerived parent j).on a = settled a (a.insertDerived parent j) := by
  unfold insertDerived Arena.insertDerived
  rw [on_ask_bind]
  cases a.childCount parent with
  | error e => rfl
  | ok count =>
    dsimp only
    rw [on_ask_bind]
    cases derivation : a.derive (parent ++ [count]) j with
    | error e => simp [bind, Except.bind, derivation, settled]
    | ok derived =>
      dsimp only
      rw [on_bind, insert_on]
      have placed := stores.insert derived parent
      cases inserted : a.insert derived parent with
      | error e => simp [bind, Except.bind, derivation, inserted, settled]
      | ok x =>
        rcases x with ⟨path, extended⟩
        rw [inserted] at placed
        obtain ⟨y, _, same, stores', present⟩ := placed.exists_ok_right
        rw [← same, ← stores'.isSome] at present
        obtain ⟨id, found⟩ := Option.isSome_iff_exists.mp present
        have reached : extended.find path = .ok id := Arena.find_eq_ok.mpr found
        simp only [settled, on_bind, on_ask, reached, on_change, on_pure]
        simp [bind, Except.bind, derivation, inserted, reached, pure, Except.pure]

theorem settled_error {outcome : Except ProofError (α × Arena)} {e : ProofError} {after : Arena}
    (failed : settled a outcome = (.error e, after)) : after = a := by
  cases outcome with
  | error _ => exact (Prod.mk.inj failed).2.symm
  | ok x => cases failed

theorem settled_eq_ok {outcome : Except ProofError (α × Arena)} {x : α} {after : Arena} :
    settled a outcome = (.ok x, after) ↔ outcome = .ok (x, after) := by
  cases outcome with
  | error _ => simp [settled]
  | ok y => simp [settled, Prod.ext_iff]

end Update

end ProofDesk.Deduction
