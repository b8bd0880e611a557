import ProofDesk.Limits.Rendering
import ProofDesk.Proofs.Limits.Freshness
import ProofDesk.Proofs.Limits.SingleLines

namespace ProofDesk.Limits

open Text (dropReturn dropReturn_append)

namespace Rendering

/-- The line of a rendered text with a number.  Lines are counted from one. -/
def lineAt? (r : Rendering) : Nat → Option Text
  | 0 => none
  | k + 1 => (Text.lines r.text)[k]?

/-! Numbers that increase lead back to their places. -/

variable {r : Rendering}

theorem findIdx?_eq_some_iff (increasing : r.lines.Pairwise (· < ·)) {k i : Nat} :
    r.lines.findIdx? (· == k) = some i ↔ r.lines[i]? = some k := by
  rw [List.findIdx?_eq_some_iff_getElem, List.getElem?_eq_some_iff]
  constructor
  · intro found
    rcases found with ⟨inside, here, -⟩
    exact ⟨inside, beq_iff_eq.mp here⟩
  · intro found
    rcases found with ⟨inside, here⟩
    refine ⟨inside, beq_iff_eq.mpr here, ?_⟩
    intro j earlier again
    have before := List.pairwise_iff_getElem.mp increasing j i (earlier.trans inside) inside earlier
    rw [beq_iff_eq.mp again, here] at before
    exact Nat.lt_irrefl k before

theorem step?_eq_initial_iff (increasing : r.lines.Pairwise (· < ·)) (k : Nat) :
    r.step? k = some .initial ↔ r.lines[0]? = some k := by
  rw [step?, Option.map_eq_some_iff, ← findIdx?_eq_some_iff increasing]
  constructor
  · intro found
    rcases found with ⟨i, here, first⟩
    cases i with
    | zero => exact here
    | succ i => cases first
  · intro here
    exact ⟨0, here, rfl⟩

theorem step?_eq_line_iff (increasing : r.lines.Pairwise (· < ·)) (i k : Nat) :
    r.step? k = some (.line i) ↔ r.lines[i + 1]? = some k := by
  rw [step?, Option.map_eq_some_iff, ← findIdx?_eq_some_iff increasing]
  constructor
  · intro found
    rcases found with ⟨j, here, later⟩
    cases j with
    | zero => cases later
    | succ j =>
      cases later
      exact here
  · intro here
    exact ⟨i + 1, here, rfl⟩

theorem step?_eq_none_iff (r : Rendering) (k : Nat) : r.step? k = none ↔ k ∉ r.lines := by
  rw [step?, Option.map_eq_none_iff, List.findIdx?_eq_none_iff]
  constructor
  · intro other listed
    exact absurd rfl (beq_eq_false_iff_ne.mp (other k listed))
  · intro absent x listed
    apply beq_false_of_ne
    intro same
    exact absent (same ▸ listed)

end Rendering

/-- Every tactic ends with a comma, but what is to be done on all subgoals follows on its own. -/
theorem Tactic.terminator_eq (t : Tactic) : t.terminator = "," ∨ t = .splitAll := by
  cases t with
  | splitAll => exact Or.inr rfl
  | _ => exact Or.inl rfl

namespace Session

def namedBefore (s : Session) (i : Nat) : Nat :=
  (s.hypotheses.take i).countP fun v => !v.isDeclaration

/-- The lines that a theorem is put together from. -/
def written (s : Session) (goal : Statement) : List Text :=
  s.opening goal ++ s.proof.map (fun line => renderLine line.tactic) ++ [("end" : Text)]

def rendering (s : Session) (goal : Statement) : Rendering where
  text := Text.joinWith "\n" (s.written goal) ++ "\n"
  lines := (List.range (s.proof.length + 1)).map fun i => (s.opening goal).length + i

theorem render_of_goal {s : Session} {goal : Statement} (set : s.goal = some goal) :
    s.render = .ok (s.rendering goal) := by
  rw [render, set]
  rfl

theorem length_namesFrom (n : Nat) (vs : List Statement) : (namesFrom n vs).length = vs.length := by
  induction vs generalizing n with
  | nil => rfl
  | cons v vs ih =>
    rw [namesFrom]
    split
    · exact congrArg Nat.succ (ih n)
    · exact congrArg Nat.succ (ih (n + 1))

theorem getElem?_namesFrom {vs : List Statement} {i : Nat} {v : Statement} (n : Nat)
    (there : vs[i]? = some v) : (namesFrom n vs)[i]? = some (if v.isDeclaration then none
      else some ('H' :: Text.ofNat (n + (vs.take i).countP fun v => !v.isDeclaration))) := by
  induction vs generalizing n i with
  | nil => cases there
  | cons w vs ih =>
    cases i with
    | zero =>
      cases there
      rw [namesFrom]
      split <;> rfl
    | succ i =>
      rw [List.getElem?_cons_succ] at there
      rw [namesFrom, List.take_succ_cons, List.countP_cons]
      by_cases declares : w.isDeclaration = true
      · rw [if_pos declares, List.getElem?_cons_succ, ih n there]
        simp [declares]
      · rw [if_neg declares, List.getElem?_cons_succ, ih (n + 1) there, Nat.add_assoc,
          Nat.add_comm 1]
        simp [declares]

theorem newline_not_mem_hypothesisNames {s : Session} {x : Text} (named : some x ∈ s.hypothesisNames) :
    '\n' ∉ x := by
  obtain ⟨k, rfl⟩ := exists_number_of_mem_namesFrom named
  intro member
  rcases List.mem_cons.mp member with first | digit
  · cases first
  · exact absurd (Text.isDigit_of_mem_ofNat digit) (by decide)

variable {name : Text} {es : List Entry} {s : Session} {goal : Statement}

theorem length_opening (s : Session) (goal : Statement) :
    (s.opening goal).length = preamble.length + s.hypotheses.length + 3 := by
  simp only [opening, List.length_append, List.length_zipWith, hypothesisNames, length_namesFrom,
    Nat.min_self, List.length_cons, List.length_nil]
  omega

def proved (s : Session) (goal : Statement) : List Text :=
  ("  : " ++ goal.formal ++ " :=" : Text) :: ("begin" : Text) ::
    (s.proof.map (fun line => renderLine line.tactic) ++ [("end" : Text)])

def stated (s : Session) (goal : Statement) : List Text :=
  ("theorem " ++ s.name : Text) ::
    (List.zipWith renderHypothesis s.hypothesisNames s.hypotheses ++ s.proved goal)

theorem written_eq (s : Session) (goal : Statement) : s.written goal = preamble ++ s.stated goal := by
  simp [written, opening, stated, proved]

theorem newline_not_mem_written (single : s.SingleLines) (named : '\n' ∉ s.name)
    (set : s.goal = some goal) : ∀ x ∈ s.written goal, '\n' ∉ x := by
  have preface : ∀ x ∈ preamble, '\n' ∉ x := by decide +kernel
  have title : '\n' ∉ ("theorem " ++ s.name : Text) := List.not_mem_append (by decide) named
  have hypotheses : ∀ x ∈ List.zipWith renderHypothesis s.hypothesisNames s.hypotheses, '\n' ∉ x := by
    intro x member
    obtain ⟨i, there⟩ := List.mem_iff_getElem?.mp member
    obtain ⟨y, v, listed, held, rfl⟩ := List.getElem?_zipWith_eq_some.mp there
    have shown := single.hypotheses v (List.mem_of_getElem? held)
    cases y with
    | none => exact List.not_mem_append (List.not_mem_append (by decide) shown) (by decide)
    | some y =>
      have own := newline_not_mem_hypothesisNames (List.mem_of_getElem? listed)
      have opened : '\n' ∉ ("  (" ++ y ++ " : " : Text) :=
        List.not_mem_append (List.not_mem_append (by decide) own) (by decide)
      exact List.not_mem_append (List.not_mem_append opened shown) (by decide)
  have target : '\n' ∉ ("  : " ++ goal.formal ++ " :=" : Text) :=
    List.not_mem_append (List.not_mem_append (by decide) (single.goal goal set)) (by decide)
  have steps : ∀ x ∈ s.proof.map fun line => renderLine line.tactic, '\n' ∉ x := by
    intro x member
    obtain ⟨line, listed, rfl⟩ := List.mem_map.mp member
    have ending : '\n' ∉ line.tactic.terminator := by
      rcases line.tactic.terminator_eq with comma | all
      · rw [comma]
        decide
      · rw [all]
        decide
    have indented : '\n' ∉ ("  " ++ line.tactic.formal : Text) :=
      List.not_mem_append (by decide) (single.proof line listed)
    exact List.not_mem_append indented ending
  rw [written_eq]
  simp only [stated, proved, List.forall_mem_append, List.forall_mem_cons]
  exact ⟨preface, title, hypotheses, target, by decide, steps, by decide⟩

theorem lineAt?_rendering (unbroken : ∀ x ∈ s.written goal, '\n' ∉ x) (j : Nat) :
    (s.rendering goal).lineAt? (preamble.length + j + 1) = (s.stated goal)[j]?.map dropReturn := by
  have given : s.written goal ≠ [] := by simp [written]
  rw [Rendering.lineAt?, rendering, Text.lines_joinWith given unbroken, List.getElem?_map, written_eq,
    List.getElem?_append_right (Nat.le_add_right _ _), Nat.add_sub_cancel_left]

theorem dropReturn_renderHypothesis (x : Option Text) (v : Statement) :
    dropReturn (renderHypothesis x v) = renderHypothesis x v := by
  cases x with
  | none => exact dropReturn_append _ (by decide) (by decide)
  | some x => exact dropReturn_append _ (by decide) (by decide)

theorem dropReturn_renderLine (t : Tactic) : dropReturn (renderLine t) = renderLine t := by
  rcases t.terminator_eq with comma | rfl
  · rw [renderLine, comma]
    exact dropReturn_append _ (by decide) (by decide)
  · decide

theorem lineAt?_hypothesis (unbroken : ∀ x ∈ s.written goal, '\n' ∉ x) {i : Nat} {v : Statement}
    (there : s.hypotheses[i]? = some v) : (s.rendering goal).lineAt? (preamble.length + i + 2) =
      some (renderHypothesis (if v.isDeclaration then none
        else some ('H' :: Text.ofNat (1 + s.namedBefore i))) v) := by
  have named := getElem?_namesFrom 1 there
  have listed : (List.zipWith renderHypothesis s.hypothesisNames s.hypotheses)[i]? =
      some (renderHypothesis (if v.isDeclaration then none
        else some ('H' :: Text.ofNat (1 + s.namedBefore i))) v) := by
    rw [List.getElem?_zipWith, hypothesisNames, named, there]
    rfl
  have inside := (List.getElem?_eq_some_iff.mp listed).1
  have place : preamble.length + i + 2 = preamble.length + (i + 1) + 1 := by omega
  rw [place, lineAt?_rendering unbroken, stated, List.getElem?_cons_succ,
    List.getElem?_append_left inside, listed, Option.map_some, dropReturn_renderHypothesis]

theorem lineAt?_proved (unbroken : ∀ x ∈ s.written goal, '\n' ∉ x) (j : Nat) :
    (s.rendering goal).lineAt? (preamble.length + s.hypotheses.length + 2 + j) =
      (s.proved goal)[j]?.map dropReturn := by
  have count : (List.zipWith renderHypothesis s.hypothesisNames s.hypotheses).length =
      s.hypotheses.length := by
    rw [List.length_zipWith, hypothesisNames, length_namesFrom, Nat.min_self]
  have place : preamble.length + s.hypotheses.length + 2 + j =
      preamble.length + (s.hypotheses.length + j + 1) + 1 := by omega
  rw [place, lineAt?_rendering unbroken, stated, List.getElem?_cons_succ,
    List.getElem?_append_right (by omega), count, Nat.add_sub_cancel_left]

theorem getElem?_lines_rendering {i : Nat} (inside : i ≤ s.proof.length) :
    (s.rendering goal).lines[i]? = some (preamble.length + s.hypotheses.length + 3 + i) := by
  rw [rendering, List.getElem?_map, List.getElem?_range (Nat.lt_succ_of_le inside), Option.map_some,
    length_opening]

end Session

/-- A rendering holds what a session does, line by line, and its numbers are those of the first line
of the proof and of the steps. -/
structure Rendering.Shows (r : Rendering) (s : Session) (goal : Statement) : Prop where
  title : r.lineAt? (preamble.length + 1) = some (dropReturn ("theorem " ++ s.name))
  declaration : ∀ i v, s.hypotheses[i]? = some v → v.isDeclaration = true →
    r.lineAt? (preamble.length + i + 2) = some ("  (" ++ v.formal ++ ")" : Text)
  hypothesis : ∀ i v, s.hypotheses[i]? = some v → v.isDeclaration = false →
    r.lineAt? (preamble.length + i + 2) =
      some ("  (H" ++ Text.ofNat (1 + s.namedBefore i) ++ " : " ++ v.formal ++ ")" : Text)
  goal : r.lineAt? (preamble.length + s.hypotheses.length + 2) =
    some ("  : " ++ goal.formal ++ " :=" : Text)
  count : r.lines.length = s.proof.length + 1
  increasing : r.lines.Pairwise (· < ·)
  first : r.lines[0]? = some (preamble.length + s.hypotheses.length + 3)
  start : ∀ k, r.lines[0]? = some k → r.lineAt? k = some ("begin" : Text)
  step : ∀ i k line, r.lines[i + 1]? = some k → s.proof[i]? = some line →
    r.lineAt? k = some ("  " ++ line.tactic.formal ++ line.tactic.terminator : Text)
  initial : ∀ k, r.step? k = some .initial ↔ r.lines[0]? = some k
  line : ∀ i k, r.step? k = some (.line i) ↔ r.lines[i + 1]? = some k
  other : ∀ k, r.step? k = none ↔ k ∉ r.lines

namespace Session

variable {name : Text} {es : List Entry} {s : Session} {goal : Statement}

theorem increasing_lines (s : Session) (goal : Statement) :
    (s.rendering goal).lines.Pairwise (· < ·) := by
  apply List.pairwise_map.mpr
  exact List.pairwise_lt_range.imp fun before => Nat.add_lt_add_left before _

theorem shows_rendering (unbroken : ∀ x ∈ s.written goal, '\n' ∉ x) :
    (s.rendering goal).Shows s goal where
  title := lineAt?_rendering unbroken 0
  declaration i v there declares := by
    rw [lineAt?_hypothesis unbroken there, if_pos declares]
    rfl
  hypothesis i v there other := by
    rw [lineAt?_hypothesis unbroken there, if_neg (by simp [other])]
    rfl
  goal := by
    have line := lineAt?_proved unbroken 0
    rw [proved, List.getElem?_cons_zero, Option.map_some,
      dropReturn_append _ (by decide) (by decide)] at line
    exact line
  count := by simp [rendering]
  increasing := increasing_lines s goal
  first := getElem?_lines_rendering (Nat.zero_le _)
  start k listed := by
    rw [getElem?_lines_rendering (Nat.zero_le _)] at listed
    cases listed
    exact lineAt?_proved unbroken 1
  step i k line listed there := by
    have inside := (List.getElem?_eq_some_iff.mp there).1
    rw [getElem?_lines_rendering inside] at listed
    cases listed
    have shown : (s.proof.map (fun line => renderLine line.tactic) ++ [("end" : Text)])[i]? =
        some (renderLine line.tactic) := by
      rw [List.getElem?_append_left (by simpa using inside), List.getElem?_map, there]
      rfl
    have place : preamble.length + s.hypotheses.length + 3 + (i + 1) =
        preamble.length + s.hypotheses.length + 2 + (i + 2) := by omega
    rw [place, lineAt?_proved unbroken, proved, List.getElem?_cons_succ, List.getElem?_cons_succ, shown,
      Option.map_some, dropReturn_renderLine]
    rfl
  initial := Rendering.step?_eq_initial_iff (increasing_lines s goal)
  line := Rendering.step?_eq_line_iff (increasing_lines s goal)
  other := Rendering.step?_eq_none_iff _

theorem Built.proof_eq_nil (built : Built name es s) (unset : s.goal = none) : s.proof = [] := by
  induction built with
  | start => rfl
  | hypothesis _ added _ ih =>
    obtain ⟨v, ctx, -, rfl⟩ := addHypothesis_eq_ok added
    exact ih unset
  | goal _ set _ _ =>
    obtain ⟨v, ctx, -, rfl⟩ := setGoal_eq_ok set
    cases unset
  | line _ added _ _ =>
    have given := added
    obtain ⟨t, ctx, -, rfl⟩ := addLine_eq_ok added
    rw [addLine, if_pos (Option.isNone_iff_eq_none.mpr unset)] at given
    cases given

/-- A session without a goal has no proof yet and is not rendered.  Any other one is rendered with the
right line numbers, if the name of its theorem is on one line. -/
theorem Built.render_shows (built : Built name es s) (named : '\n' ∉ s.name) :
    (s.goal = none → s.proof = [] ∧ s.render = .error .noGoal) ∧
      ∀ goal, s.goal = some goal → ∃ r, s.render = .ok r ∧ r.Shows s goal := by
  constructor
  · intro unset
    refine ⟨built.proof_eq_nil unset, ?_⟩
    rw [render, unset]
  · intro goal set
    have unbroken := newline_not_mem_written built.singleLines named set
    exact ⟨s.rendering goal, render_of_goal set, shows_rendering unbroken⟩

def assumedLimit : Session :=
  let declared : Context := Context.empty.declare (.realDeclaration "l")
  let ctx : Context := { declared with goal := some (.limit "a" "l") }
  { name := "limit", hypotheses := [.realDeclaration "l", .limit "a" "l"], goal := ctx.goal,
    initialContext := ctx, context := ctx, proof := [⟨.linearArithmetic, ctx⟩] }

theorem built_assumedLimit : Built "limit" [.hypothesis (.realDeclaration "l"),
    .hypothesis (.limit "a" "l"), .goal (.limit "a" "l"), .line .linearArithmetic] assumedLimit := by
  let declared : Session := { name := "limit", hypotheses := [.realDeclaration "l"],
                              context := Context.empty.declare (.realDeclaration "l") }
  let assumed : Session := { declared with hypotheses := [.realDeclaration "l", .limit "a" "l"] }
  have ⟨first, second, set, added⟩ :
      (Session.start "limit").addHypothesis "$l \\in \\mathbb\x7bR\x7d$" = .ok declared ∧
      declared.addHypothesis "$a_n \\rightarrow l$" = .ok assumed ∧
      assumed.setGoal "$a_n \\rightarrow l$" = .ok { assumedLimit with proof := [] } ∧
      Session.addLine { assumedLimit with proof := [] } "By linear arithmetic" = .ok assumedLimit := by
    decide +kernel
  have one : Built "limit" [.hypothesis (.realDeclaration "l")] declared := .hypothesis .start first rfl
  have two : Built "limit" [.hypothesis (.realDeclaration "l"), .hypothesis (.limit "a" "l")]
      assumed := .hypothesis one second rfl
  have three : Built "limit" [.hypothesis (.realDeclaration "l"), .hypothesis (.limit "a" "l"),
      .goal (.limit "a" "l")] { assumedLimit with proof := [] } := .goal two set rfl
  exact .line three added rfl

/-- The only hypothesis that is no declaration is the first one to have a name. -/
theorem render_shows_assumedLimit : ∃ r, assumedLimit.render = .ok r ∧
    r.lineAt? 11 = some ("  (H1 : is_limit a l)" : Text) ∧ r.lines[0]? = some 13 ∧
    r.step? 14 = some (.line 0) ∧ r.lineAt? 14 = some ("  linarith," : Text) := by
  have named : '\n' ∉ assumedLimit.name := by decide
  obtain ⟨r, rendered, told⟩ := (built_assumedLimit.render_shows named).2 _ rfl
  have same : assumedLimit.rendering (.limit "a" "l") = r :=
    Except.ok.inj ((render_of_goal rfl).symm.trans rendered)
  have second : r.lines[1]? = some 14 := by
    rw [← same]
    rfl
  have assumption := told.hypothesis 1 (.limit "a" "l") rfl rfl
  have step := told.step 0 14 _ second rfl
  exact ⟨r, rendered, assumption.trans (by decide +kernel), told.first, (told.line 0 14).mpr second,
    step.trans (by decide +kernel)⟩

/-- A session that has only been given a name is not rendered. -/
theorem not_render_shows : ¬∀ (name : Text) (es : List Entry) (s : Session), Built name es s →
    '\n' ∉ s.name → ∃ r goal, s.render = .ok r ∧ r.Shows s goal := by
  intro rendered
  obtain ⟨r, goal, done, -⟩ := rendered "t" [] (start "t") .start (by decide)
  cases done

end Session
end ProofDesk.Limits
