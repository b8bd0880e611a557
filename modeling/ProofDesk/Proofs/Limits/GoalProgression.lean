import ProofDesk.Proofs.Limits.Resubmission

/-!
How proof lines lead from a limit to what is to be shown about one term of its sequence.  The goal
goes through four stages, and only three kinds of lines lead from one to the next.  The names that a
user gives are put in place of the bound names `N` and `n`, wherever these stand in the goal, so what
is to be shown in the end is what was stated exactly if none of the stated names meets them.
-/

namespace ProofDesk.Limits

open Statement (renameName LegibleLeaf)

theorem Context.afterNatural_goal (ctx : Context) (t : Tactic) :
    (ctx.afterNatural t).goal = ctx.goal := by
  unfold Context.afterNatural
  cases t.association? <;> cases t.hypothesis?.isSome <;> rfl

theorem Context.advance_goal (ctx : Context) (t : Tactic) :
    (ctx.advance t).goal = (ctx.goal.bind t.nextGoal?).or ctx.goal := by
  unfold Context.advance
  split
  · next goal next =>
    rw [next]
    rfl
  · next next =>
    rw [next]
    rfl

namespace Session

/-- Accepted lines one after the other, and the tactics that they are. -/
inductive Lines : Session → List Tactic → Session → Prop where
  | nil {s : Session} : Lines s [] s
  | cons {s next s' : Session} {text : Text} {t : Tactic} {ts : List Tactic}
    (added : s.addLine text = .ok next) (entry : next.proof = s.proof ++ [⟨t, next.context⟩])
    (lines : Lines next ts s') : Lines s (t :: ts) s'

theorem goal_of_addLine {s s' : Session} {text : Text} {t : Tactic}
    (added : s.addLine text = .ok s') (entry : s'.proof = s.proof ++ [⟨t, s'.context⟩]) :
    t.Legible s.context ∧
      s'.context.goal = (s.context.goal.bind t.nextGoal?).or s.context.goal := by
  obtain ⟨u, ctx, read, rfl⟩ := addLine_eq_ok added
  obtain ⟨rfl, legible⟩ := Tactic.legible_of_readNatural? read
  obtain ⟨rfl, -⟩ := ProofLine.mk.inj (List.singleton_inj.mp (List.append_cancel_left entry))
  refine ⟨legible, ?_⟩
  rw [Context.advance_goal, Context.afterNatural_goal]

end Session

def near (seq index limit : Text) (tolerance : Statement) : Statement :=
  .inequality (.distance (.application seq index) (.identifier limit)) .lt tolerance

/-- What a user has named since a limit became the goal. -/
inductive Stage where
  | stated
  | tolerance (e : Statement)
  | bound (e : Statement) (M : Text)
  | index (e : Statement) (M m : Text)

namespace Stage

def next : Stage → Tactic → Stage
  | stated, .fixTolerance e _ => tolerance e
  | tolerance e, .claim M => bound e M
  | bound e M, .fixIndex m _ => index e M m
  | stage, _ => stage

def goal (seq limit : Text) : Stage → Statement
  | stated => .limit seq limit
  | tolerance e => Tactic.nearFrom seq limit e
  | bound e M => .forAllFrom "n" M ((near seq "n" limit e).rename "N" M)
  | index e M m => ((near seq "n" limit e).rename "N" M).rename "n" m

variable {seq limit : Text} {stage : Stage} {t : Tactic} {ts : List Tactic} {ctx : Context}

/-- Each tactic takes the goal of a stage to the goal of the next one. -/
theorem goal_next (seq limit : Text) (stage : Stage) (t : Tactic) :
    some ((stage.next t).goal seq limit) =
      (t.nextGoal? (stage.goal seq limit)).or (some (stage.goal seq limit)) := by
  cases stage <;> cases t <;> rfl

theorem eq_stated_of_hasLimitGoal (goal : ctx.goal = some (stage.goal seq limit))
    (limited : ctx.hasLimitGoal = true) : stage = stated := by
  rw [Context.hasLimitGoal, goal] at limited
  cases stage with
  | stated => rfl
  | _ => cases limited

theorem eq_bound_of_hasIndexGoal (goal : ctx.goal = some (stage.goal seq limit))
    (indexed : ctx.hasIndexGoal = true) : ∃ e M, stage = bound e M := by
  rw [Context.hasIndexGoal, goal] at indexed
  cases stage with
  | bound e M => exact ⟨e, M, rfl⟩
  | _ => cases indexed

theorem next_tolerance {e : Statement} (other : ∀ x, t ≠ .claim x) :
    (tolerance e).next t = tolerance e := by
  cases t with
  | claim x => exact absurd rfl (other x)
  | _ => rfl

theorem foldl_tolerance {e : Statement} (others : ∀ x, .claim x ∉ ts) :
    ts.foldl next (tolerance e) = tolerance e := by
  induction ts with
  | nil => rfl
  | cons t ts ih =>
    have other : ∀ x, t ≠ .claim x := fun x same => others x (same ▸ List.mem_cons_self)
    rw [List.foldl_cons, next_tolerance other]
    exact ih fun x member => others x (List.mem_cons_of_mem t member)

theorem foldl_index {e : Statement} {M m : Text} :
    ts.foldl next (index e M m) = index e M m := by
  induction ts with
  | nil => rfl
  | cons t ts ih => exact ih

theorem foldl_bound {e e' : Statement} {M M' : Text}
    (stays : ts.foldl next (bound e M) = bound e' M') : e' = e ∧ M' = M := by
  induction ts with
  | nil =>
    cases stays
    exact ⟨rfl, rfl⟩
  | cons t ts ih =>
    cases t with
    | fixIndex m h =>
      rw [List.foldl_cons, next, foldl_index] at stays
      cases stays
    | _ => exact ih stays

end Stage

namespace Session.Lines

variable {s s' : Session} {ts us : List Tactic} {seq limit : Text} {stage : Stage}

theorem split (lines : Lines s (ts ++ us) s') :
    ∃ between, Lines s ts between ∧ Lines between us s' := by
  induction ts generalizing s with
  | nil => exact ⟨s, .nil, lines⟩
  | cons t ts ih =>
    cases lines with
    | cons added entry lines =>
      obtain ⟨between, before, after⟩ := ih lines
      exact ⟨between, .cons added entry before, after⟩

theorem goal_eq (lines : Lines s ts s') (start : s.context.goal = some (stage.goal seq limit)) :
    s'.context.goal = some ((ts.foldl Stage.next stage).goal seq limit) := by
  induction lines generalizing stage with
  | nil => exact start
  | @cons s next s' text t ts added entry lines ih =>
    apply ih
    obtain ⟨-, goal⟩ := goal_of_addLine added entry
    rw [goal, start, Stage.goal_next]
    rfl

theorem legible_inside {t : Tactic} (lines : Lines s (ts ++ t :: us) s') :
    ∃ between, Lines s ts between ∧ t.Legible between.context := by
  obtain ⟨between, before, rest⟩ := lines.split
  cases rest with
  | cons added entry _ => exact ⟨between, before, (goal_of_addLine added entry).1⟩

theorem stage_of_fixTolerance {e : Statement} {h : Text}
    (lines : Lines s (ts ++ .fixTolerance e h :: us) s')
    (start : s.context.goal = some (stage.goal seq limit)) :
    ts.foldl Stage.next stage = .stated ∧ LegibleLeaf .empty e := by
  obtain ⟨between, before, legible⟩ := lines.legible_inside
  cases legible with
  | fixTolerance leaf limited =>
    exact ⟨Stage.eq_stated_of_hasLimitGoal (before.goal_eq start) limited, leaf⟩

theorem stage_of_fixIndex {m h : Text} (lines : Lines s (ts ++ .fixIndex m h :: us) s')
    (start : s.context.goal = some (stage.goal seq limit)) :
    ∃ e M, ts.foldl Stage.next stage = .bound e M := by
  obtain ⟨between, before, legible⟩ := lines.legible_inside
  cases legible with
  | fixIndex _ indexed => exact Stage.eq_bound_of_hasIndexGoal (before.goal_eq start) indexed

end Session.Lines

/-- A name that neither the bound nor the index is put in place of. -/
def Spared (M m x : Text) : Prop :=
  (x = "N" → M = "N" ∨ M = "n" ∧ m = "N") ∧ (x = "n" → m = "n")

theorem renameName_renameName_iff {old old' new new' x : Text} (apart : old ≠ old') :
    renameName old' new' (renameName old new x) = x ↔
      (x = old → new = old ∨ new = old' ∧ new' = old) ∧ (x = old' → new' = old') := by
  unfold renameName
  by_cases first : x = old
  · subst first
    rw [if_pos rfl]
    by_cases again : new = old' <;> simp [again, apart, apart.symm]
  · rw [if_neg first]
    by_cases second : x = old' <;> simp [first, second, apart.symm]

theorem renamed_iff_spared {M m x : Text} :
    renameName "n" m (renameName "N" M x) = x ↔ Spared M m x :=
  renameName_renameName_iff (by decide)

namespace Session.Lines

variable {s s' : Session} {a l M m h h' : Text} {e : Statement}
  {before between further after : List Tactic}

theorem goal_eq_index (start : s.context.goal = some (.limit a l))
    (lines : Lines s (before ++ .fixTolerance e h ::
      (between ++ .claim M :: (further ++ .fixIndex m h' :: after))) s')
    (first : ∀ x, .claim x ∉ between) :
    LegibleLeaf .empty e ∧ s'.context.goal = some ((Stage.index e M m).goal a l) := by
  have start : s.context.goal = some (Stage.stated.goal a l) := start
  obtain ⟨stated, leaf⟩ := lines.stage_of_fixTolerance start
  have fixed : between.foldl Stage.next (.tolerance e) = .tolerance e := Stage.foldl_tolerance first
  have gathered : before ++ .fixTolerance e h ::
      (between ++ .claim M :: (further ++ .fixIndex m h' :: after)) =
      (before ++ .fixTolerance e h :: (between ++ .claim M :: further)) ++
        .fixIndex m h' :: after := by
    simp
  have claimed : further.foldl Stage.next (.bound e M) = .bound e M := by
    obtain ⟨e', M', stays⟩ := (gathered ▸ lines).stage_of_fixIndex start
    rw [List.foldl_append, stated, List.foldl_cons, Stage.next, List.foldl_append, fixed,
      List.foldl_cons, Stage.next] at stays
    obtain ⟨rfl, rfl⟩ := Stage.foldl_bound stays
    exact stays
  refine ⟨leaf, ?_⟩
  rw [lines.goal_eq start, List.foldl_append, stated, List.foldl_cons, Stage.next, List.foldl_append,
    fixed, List.foldl_cons, Stage.next, List.foldl_append, claimed, List.foldl_cons, Stage.next,
    Stage.foldl_index]

end Session.Lines

theorem Stage.goal_index_eq_near_iff {a l M m : Text} {e : Statement} (leaf : LegibleLeaf .empty e) :
    (Stage.index e M m).goal a l = near a m l e ↔
      ∀ x, x = a ∨ x = l ∨ e = .identifier x → Spared M m x := by
  have index : renameName "n" m (renameName "N" M "n") = m := by
    have apart : ("n" : Text) ≠ "N" := by decide
    rw [renameName, renameName, if_neg apart, if_pos rfl]
  have terms : (Stage.index e M m).goal a l = near a m l e ↔
      Spared M m a ∧ Spared M m l ∧ (e.rename "N" M).rename "n" m = e := by
    simp only [Stage.goal, near, Statement.rename, index, renamed_iff_spared,
      Statement.inequality.injEq, Statement.distance.injEq, Statement.application.injEq,
      Statement.identifier.injEq, true_and, and_true, and_assoc]
  rw [terms]
  have tolerance : (e.rename "N" M).rename "n" m = e ↔ ∀ x, e = .identifier x → Spared M m x := by
    cases leaf with
    | identifier => simp only [Statement.rename, Statement.identifier.injEq, renamed_iff_spared,
        forall_eq']
    | epsilon => simp only [Statement.rename, reduceCtorEq, false_implies, implies_true]
    | application _ _ known => cases known
  rw [tolerance]
  constructor
  · rintro ⟨seq, limit, names⟩ x (rfl | rfl | named)
    · exact seq
    · exact limit
    · exact names x named
  · intro spared
    exact ⟨spared a (Or.inl rfl), spared l (Or.inr (Or.inl rfl)),
      fun x named => spared x (Or.inr (Or.inr named))⟩

/-- Once a user has named the tolerance, the bound and the index, what is to be shown is the
definition of the limit for these, exactly if no stated name is one of those that the names of a user
are put in place of. -/
theorem Session.Lines.goal_eq_near_iff {s s' : Session} {a l M m h h' : Text} {e : Statement}
    {before between further after : List Tactic} (start : s.context.goal = some (.limit a l))
    (lines : Lines s (before ++ .fixTolerance e h ::
      (between ++ .claim M :: (further ++ .fixIndex m h' :: after))) s')
    (first : ∀ x, .claim x ∉ between) :
    s'.context.goal = some (near a m l e) ↔
      ∀ x, x = a ∨ x = l ∨ e = .identifier x → Spared M m x := by
  obtain ⟨leaf, goal⟩ := lines.goal_eq_index start first
  rw [goal, Option.some.injEq, Stage.goal_index_eq_near_iff leaf]

def Session.aboutLimit (seq limit : Text) : Session :=
  let ctx : Context := { goal := some (.limit seq limit) }
  { name := "limit", goal := ctx.goal, initialContext := ctx, context := ctx }

def Session.followedBy (s : Session) (t : Tactic) : Session :=
  let ctx := (s.context.afterNatural t).advance t
  { s with proof := s.proof ++ [⟨t, ctx⟩], context := ctx }

/-- A bound named like the bound name takes its own place. -/
theorem Session.Lines.goal_eq_near_maximum : ∃ s s',
    (Session.start "limit").setGoal "$a_n \\rightarrow l$" = .ok s ∧
      Lines s [.fixTolerance .epsilon "A1", .letMax "N" "K" "M", .claim "N", .fixIndex "m" "A2"] s' ∧
      s'.context.goal = some (near "a" "m" "l" .epsilon) := by
  let s := Session.aboutLimit "a" "l"
  let s₁ := s.followedBy (.fixTolerance .epsilon "A1")
  let s₂ := s₁.followedBy (.letMax "N" "K" "M")
  let s₃ := s₂.followedBy (.claim "N")
  have ⟨set, line₁, line₂, line₃, line₄⟩ :
      (Session.start "limit").setGoal "$a_n \\rightarrow l$" = .ok s ∧
      s.addLine "Let $\\epsilon$" = .ok s₁ ∧
      s₁.addLine "Let $N = \\max\\left(K, M\\right)$" = .ok s₂ ∧
      s₂.addLine "We claim $N$ works" = .ok s₃ ∧
      s₃.addLine "Let $m$" = .ok (s₃.followedBy (.fixIndex "m" "A2")) := by decide +kernel
  have lines : Lines s ([] ++ .fixTolerance .epsilon "A1" :: ([.letMax "N" "K" "M"] ++
      .claim "N" :: ([] ++ [.fixIndex "m" "A2"]))) (s₃.followedBy (.fixIndex "m" "A2")) :=
    .cons line₁ rfl (.cons line₂ rfl (.cons line₃ rfl (.cons line₄ rfl .nil)))
  have spared : ∀ x : Text, x = "a" ∨ x = "l" ∨ Statement.epsilon = .identifier x →
      Spared "N" "m" x := by
    rintro x (rfl | rfl | named)
    · unfold Spared
      decide
    · unfold Spared
      decide
    · cases named
  have first : ∀ x, .claim x ∉ [Tactic.letMax "N" "K" "M"] := by simp
  exact ⟨s, _, set, lines, (lines.goal_eq_near_iff rfl first).mpr spared⟩

/-- A limit named like the bound name is replaced by the bound. -/
theorem Session.Lines.not_goal_eq_near :
    ¬∀ (s s' : Session) (a l M m h h' : Text) (e : Statement) (before between further : List Tactic),
      s.context.goal = some (.limit a l) →
        Lines s (before ++ .fixTolerance e h ::
          (between ++ .claim M :: (further ++ [.fixIndex m h']))) s' →
        (∀ x, .claim x ∉ between) → s'.context.goal = some (near a m l e) := by
  intro stays
  let s := Session.aboutLimit "a" "N"
  let s₁ := s.followedBy (.fixTolerance .epsilon "A1")
  let s₂ := s₁.followedBy (.claim "M")
  have ⟨line₁, line₂, line₃⟩ : s.addLine "Let $\\epsilon$" = .ok s₁ ∧
      s₁.addLine "We claim $M$ works" = .ok s₂ ∧
      s₂.addLine "Let $m$" = .ok (s₂.followedBy (.fixIndex "m" "A2")) := by decide +kernel
  have lines : Lines s [.fixTolerance .epsilon "A1", .claim "M", .fixIndex "m" "A2"]
      (s₂.followedBy (.fixIndex "m" "A2")) :=
    .cons line₁ rfl (.cons line₂ rfl (.cons line₃ rfl .nil))
  have replaced : (s₂.followedBy (.fixIndex "m" "A2")).context.goal =
      some (near "a" "m" "M" .epsilon) := by decide +kernel
  have stated := stays _ _ "a" "N" "M" "m" "A1" "A2" .epsilon [] [] [] rfl lines (by simp)
  rw [replaced] at stated
  simp [near] at stated

end ProofDesk.Limits
