import ProofDesk.Limits.Feedback
import ProofDesk.Proofs.Limits.GoalProgression
import ProofDesk.Proofs.Text.Cutting

namespace ProofDesk.Limits

theorem zipWith_isPrefix {α β γ : Type} {f : α → β → γ} {as as' : List α} {bs bs' : List β}
    (left : as <+: as') (right : bs <+: bs') : List.zipWith f as bs <+: List.zipWith f as' bs' := by
  induction as generalizing as' bs bs' with
  | nil => exact List.nil_prefix
  | cons a as ih =>
    rcases left with ⟨more, rfl⟩
    cases bs with
    | nil => exact List.nil_prefix
    | cons b bs =>
      rcases right with ⟨more', rfl⟩
      have later := ih (List.prefix_append as more) (List.prefix_append bs more')
      exact List.cons_prefix_cons.mpr ⟨rfl, later⟩

theorem goalOf?_of_isAccomplished {state : Text} (done : isAccomplished state = true) :
    goalOf? state = none := by
  have silent : '⊢' ∉ Text.trim state := by
    rw [isAccomplished, Bool.or_eq_true, List.isEmpty_iff, beq_iff_eq] at done
    rcases done with empty | told
    · rw [empty]
      exact List.not_mem_nil
    · rw [told]
      decide
  rw [goalOf?, Option.map_eq_none_iff, Option.eq_none_iff_forall_ne_some]
  intro parts cut
  apply silent
  apply Text.mem_trim _ (by decide)
  rw [Text.splitLast?_eq_some cut]
  simp [Formal.turnstile]

namespace Session

variable {s s' : Session} {r r' : Response}

theorem laterGoals_length (s : Session) (r : Response) :
    (s.laterGoals r).length = min (r.states.length - 1) s.proof.length := by
  rw [laterGoals, List.length_zipWith, List.length_drop]

/-- The goal and the names after a line, in terms of the state and the context there alone. -/
theorem feedback_getElem? {i : Nat} {line : ProofLine} {state : Text}
    (there : s.proof[i]? = some line) (answer : r.states[i + 1]? = some state) :
    (s.feedback r).goals[i]? = some (tellGoal line.context state) ∧
      (s.feedback r).sentences[i]? =
        some (line.tactic.exposed.filterMap (tellName? line.context state)) := by
  have later : (r.states.drop 1)[i]? = some state := by
    rw [List.getElem?_drop, Nat.add_comm]
    exact answer
  constructor
  · rw [feedback, laterGoals, List.getElem?_zipWith, later, there]
  · rw [feedback, List.getElem?_zipWith, later, there]
    rfl

/-- With a state after every line, all is done exactly if there are lines and nothing is left to show
after the last one: what is told of a state without a goal is empty. -/
theorem isDone_iff (answered : r.states ≠ []) (whole : r.states.length = s.proof.length + 1) :
    s.isDone r = true ↔ 0 < s.proof.length ∧ isAccomplished (r.states.getLast answered) = true := by
  have last : r.states.getLast? = some (r.states.getLast answered) :=
    List.getLast?_eq_some_getLast answered
  have count : (s.laterGoals r).length = s.proof.length := by
    rw [laterGoals_length, whole, Nat.add_sub_cancel, Nat.min_self]
  rw [isDone, last, Bool.and_eq_true, Option.map_some, Option.getD_some]
  apply and_congr_left
  intro done
  constructor
  · intro told
    rw [← count, List.length_pos_iff]
    intro none
    rw [none] at told
    cases told
  · intro lines
    obtain ⟨line, there⟩ : ∃ line, s.proof[s.proof.length - 1]? = some line :=
      ⟨_, List.getElem?_eq_getElem (Nat.sub_lt lines Nat.one_pos)⟩
    have answer : r.states[s.proof.length - 1 + 1]? = some (r.states.getLast answered) := by
      rw [← last, List.getLast?_eq_getElem?, whole, Nat.sub_add_cancel lines, Nat.add_sub_cancel]
    have told : (s.laterGoals r).getLast? =
        some (tellGoal line.context (r.states.getLast answered)) := by
      rw [List.getLast?_eq_getElem?, count]
      exact (feedback_getElem? there answer).1
    rw [told, tellGoal, goalOf?_of_isAccomplished done]
    rfl

theorem feedback_error (answered : r.states ≠ []) (whole : r.states.length = s.proof.length + 1)
    (silent : r.error = none) : (s.feedback r).error =
      if 0 < s.proof.length ∧ isAccomplished (r.states.getLast answered) = true then
        some accomplished
      else none := by
  have told : (s.feedback r).error = if s.isDone r = true then some accomplished else none := by
    rw [feedback, silent]
  rw [told, if_congr (isDone_iff answered whole) rfl rfl]

end Session

/-- Feedback that says everything that earlier feedback said about the goals and names of a session,
and possibly more about what came later. -/
structure Feedback.Extends (later earlier : Feedback) : Prop where
  hypothesisNames : later.hypothesisNames = earlier.hypothesisNames
  initialGoal : later.initialGoal = earlier.initialGoal
  goals : earlier.goals <+: later.goals
  sentences : earlier.sentences <+: later.sentences

namespace Session

variable {s s' : Session} {r r' : Response} {ts : List Tactic} {text : Text}

theorem addLine_entry (added : s.addLine text = .ok s') :
    ∃ t, s'.proof = s.proof ++ [⟨t, s'.context⟩] := by
  obtain ⟨t, ctx, -, rfl⟩ := addLine_eq_ok added
  exact ⟨t, rfl⟩

/-- A session with the same beginning as another, in which the proof has possibly gone on. -/
structure Continues (s' s : Session) : Prop where
  hypotheses : s'.hypotheses = s.hypotheses
  initialContext : s'.initialContext = s.initialContext
  proof : s.proof <+: s'.proof

theorem continues_of_addLine (added : s.addLine text = .ok s') : s'.Continues s := by
  obtain ⟨t, ctx, -, rfl⟩ := addLine_eq_ok added
  exact ⟨rfl, rfl, List.prefix_append s.proof _⟩

theorem Lines.continues (lines : Lines s ts s') : s'.Continues s := by
  induction lines with
  | nil => exact ⟨rfl, rfl, List.prefix_rfl⟩
  | cons added _ _ ih =>
    have first := continues_of_addLine added
    exact ⟨ih.hypotheses.trans first.hypotheses, ih.initialContext.trans first.initialContext,
      first.proof.trans ih.proof⟩

theorem Continues.feedback (continues : s'.Continues s) (answered : r.states ≠ [])
    (states : r.states <+: r'.states) : (s'.feedback r').Extends (s.feedback r) where
  hypothesisNames := congrArg (namesFrom 1) continues.hypotheses
  initialGoal := by
    have first : r'.states.head? = r.states.head? := by
      rcases states with ⟨more, same⟩
      rw [← same, List.head?_append_of_ne_nil _ answered]
    rw [Session.feedback, Session.feedback, first, continues.initialContext]
  goals := zipWith_isPrefix (states.drop 1) continues.proof
  sentences := zipWith_isPrefix (states.drop 1) continues.proof

theorem Lines.feedback_stays (lines : Lines s ts s') (answered : r.states ≠ [])
    (states : r.states <+: r'.states) : (s'.feedback r').Extends (s.feedback r) :=
  lines.continues.feedback answered states

/-- Goals and names are told line by line, as far as there are lines and states after the first one.
Each is told from the state after its line, the context that the line left and the names that it
exposes, a further line with a further state changes nothing before it, and without an error the
theorem is reported as proved exactly if there are lines and nothing is left after the last one. -/
theorem feedback_aligned (s : Session) (r : Response) (answered : r.states ≠ []) :
    ((s.feedback r).goals.length = min (r.states.length - 1) s.proof.length ∧
      (s.feedback r).sentences.length = min (r.states.length - 1) s.proof.length) ∧
    (∀ i line state, s.proof[i]? = some line → r.states[i + 1]? = some state →
      (s.feedback r).goals[i]? = some (tellGoal line.context state) ∧
        (s.feedback r).sentences[i]? =
          some (line.tactic.exposed.filterMap (tellName? line.context state))) ∧
    (∀ text next state error, s.addLine text = .ok next →
      (∃ t, next.proof = s.proof ++ [⟨t, next.context⟩]) ∧
        (next.feedback ⟨r.states ++ [state], error⟩).Extends (s.feedback r)) ∧
    (r.states.length = s.proof.length + 1 → r.error = none → (s.feedback r).error =
      if 0 < s.proof.length ∧ isAccomplished (r.states.getLast answered) = true then
        some accomplished
      else none) := by
  refine ⟨⟨laterGoals_length s r, ?_⟩, ?_, ?_, feedback_error answered⟩
  · rw [feedback, List.length_zipWith, List.length_drop]
  · intro i line state there answer
    exact feedback_getElem? there answer
  · intro text next state error added
    rcases addLine_entry added with ⟨t, entry⟩
    have lines : Lines s [t] next := .cons added entry .nil
    exact ⟨⟨t, entry⟩, lines.feedback_stays answered (List.prefix_append r.states [state])⟩

/-- What is told about the tolerance that was fixed stays when the last line settles the goal. -/
theorem feedback_aligned_fixedTolerance :
    let positive : Text := "$\\epsilon > 0$"
    let name : Text := "A1"
    let state : Text := "ε : ℝ\nA1 : ε > 0\n⊢ ε > 0"
    let r : Response := ⟨["⊢ is_limit a l", state], none⟩
    let settled : Response := ⟨r.states ++ [noGoals], none⟩
    ∃ next, fixedTolerance.addLine "By linear arithmetic" = .ok next ∧
      (fixedTolerance.feedback r).goals[0]? = some positive ∧
      (fixedTolerance.feedback r).sentences[0]? = some [(name, positive)] ∧
      (fixedTolerance.feedback r).error = none ∧
      (next.feedback settled).Extends (fixedTolerance.feedback r) ∧
      (next.feedback settled).error = some accomplished := by
  intro positive name state r settled
  let next := fixedTolerance.followedBy .linearArithmetic
  have ⟨added, toldGoal, toldNames⟩ :
      fixedTolerance.addLine "By linear arithmetic" = .ok next ∧
      tellGoal fixedTolerance.context state = positive ∧
      [name].filterMap (tellName? fixedTolerance.context state) = [(name, positive)] := by
    decide +kernel
  have answered : r.states ≠ [] := List.cons_ne_nil _ _
  obtain ⟨-, single, stays, verdict⟩ := feedback_aligned fixedTolerance r answered
  have ⟨goal, names⟩ := single 0 _ state rfl rfl
  have answered' : settled.states ≠ [] := List.cons_ne_nil _ _
  obtain ⟨-, -, -, verdict'⟩ := feedback_aligned next settled answered'
  exact ⟨next, added, goal.trans (congrArg some toldGoal), names.trans (congrArg some toldNames),
    verdict rfl rfl, (stays _ next noGoals none added).2, verdict' rfl rfl⟩

end Session
end ProofDesk.Limits
