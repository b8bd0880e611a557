import ProofDesk.Proofs.Limits.TacticTraces

/-!
What matching does to a context.  A candidate that fails leaves no trace in it, so a dispatch over a
list of candidates is the first of them that matches, as if it had been tried alone; one that
succeeds only adds to what is known.  The counter of anonymous names goes up as well, until a tactic
mints a name when there is no number left.
-/

namespace ProofDesk.Limits

/-- A context later on: of names and classes there are only more.  Goals are set elsewhere. -/
structure Context.Grows (ctx after : Context) : Prop where
  goal : after.goal = ctx.goal
  names : ∀ x k, ctx.get? x = some k →
    ∃ k', after.get? x = some k' ∧ ∀ c, k.has c = true → k'.has c = true

namespace Context.Grows

variable {ctx middle after : Context}

theorem refl (ctx : Context) : ctx.Grows ctx :=
  ⟨rfl, fun _ k known => ⟨k, known, fun _ given => given⟩⟩

theorem trans (first : ctx.Grows middle) (second : middle.Grows after) : ctx.Grows after := by
  constructor
  · rw [second.goal, first.goal]
  · intro x k known
    obtain ⟨k', known', more⟩ := first.names x k known
    obtain ⟨k'', known'', more'⟩ := second.names x k' known'
    exact ⟨k'', known'', fun c given => more' c (more c given)⟩

theorem update (ctx : Context) (x : Text) {f : Classification → Classification}
    (keeps : ∀ k c, k.has c = true → (f k).has c = true) : ctx.Grows (ctx.update x f) := by
  refine ⟨rfl, ?_⟩
  intro y k known
  have looked : (ctx.update x f).get? y =
      if y = x then some (f ((ctx.get? x).getD {})) else ctx.get? y :=
    lookup_updateNames x y f ctx.names
  by_cases same : y = x
  · subst same
    rw [if_pos rfl, known] at looked
    exact ⟨_, looked, keeps k⟩
  · rw [if_neg same] at looked
    exact ⟨k, looked.trans known, fun _ given => given⟩

theorem add (ctx : Context) (x : Text) (c : Class) : ctx.Grows (ctx.add x c) := by
  apply update
  intro k c' given
  cases c <;> cases c' <;> first | rfl | exact given

theorem associate (ctx : Context) (x hyp : Text) : ctx.Grows (ctx.associate x hyp) := by
  apply update
  intro k c given
  cases c <;> exact given

theorem mint (ctx : Context) : ctx.Grows ctx.mint := ⟨rfl, (refl ctx).names⟩

theorem observe (ctx : Context) (name : Text) : ctx.Grows (ctx.observe name) := by
  unfold Context.observe
  split
  · exact ⟨rfl, (refl ctx).names⟩
  · exact refl ctx

theorem foldl {α : Type} {f : Context → α → Context}
    (step : ∀ (ctx : Context) (a : α), ctx.Grows (f ctx a))
    (as : List α) (ctx : Context) : ctx.Grows (as.foldl f ctx) := by
  induction as generalizing ctx with
  | nil => exact refl ctx
  | cons a as ih => exact (step ctx a).trans (ih (f ctx a))

theorem declare (ctx : Context) (v : Statement) : ctx.Grows (ctx.declare v) := by
  cases v with
  | sequenceDeclaration xs => exact foldl (fun ctx x => add ctx x .sequence) xs ctx
  | realDeclaration x => exact add ctx x .real
  | naturalDeclaration x => exact add ctx x .natural
  | _ => exact refl ctx

theorem associatePair (ctx : Context) (pair : Option (Text × Text)) :
    ctx.Grows (ctx.associatePair pair) := by
  cases pair with
  | none => exact refl ctx
  | some pair => exact associate ctx pair.1 pair.2

theorem afterNatural (ctx : Context) (t : Tactic) : ctx.Grows (ctx.afterNatural t) := by
  unfold Context.afterNatural
  split
  · exact (mint ctx).trans (associatePair _ _)
  · exact associatePair _ _

theorem afterFormal (ctx : Context) (t : Tactic) : ctx.Grows (ctx.afterFormal t) :=
  (foldl observe _ ctx).trans (associatePair _ _)

end Context.Grows

namespace Context

theorem anonymous_associatePair (ctx : Context) (pair : Option (Text × Text)) :
    (ctx.associatePair pair).anonymous = ctx.anonymous := by
  cases pair <;> rfl

theorem afterNatural_lt_iff (ctx : Context) (t : Tactic) :
    (ctx.afterNatural t).anonymous < ctx.anonymous ↔
      ¬ctx.HasRoom ∧ t.hypothesis?.isSome = true := by
  rw [anonymous_afterNatural]
  by_cases names : t.hypothesis?.isSome = true
  · rw [if_pos names, and_iff_left names]
    exact anonymous_mint_lt_iff
  · rw [if_neg names]
    exact iff_of_false (UInt32.lt_irrefl _) fun both => names both.2

theorem le_foldl_observe (names : List Text) (ctx : Context) :
    ctx.anonymous.toNat ≤ (names.foldl observe ctx).anonymous.toNat := by
  induction names generalizing ctx with
  | nil => exact Nat.le_refl _
  | cons name names ih =>
    calc ctx.anonymous.toNat
      _ ≤ (ctx.observe name).anonymous.toNat := by
        rw [anonymous_observe]
        exact Nat.le_max_left _ _
      _ ≤ (names.foldl observe (ctx.observe name)).anonymous.toNat := ih _

theorem le_afterFormal (ctx : Context) (t : Tactic) :
    ctx.anonymous ≤ (ctx.afterFormal t).anonymous := by
  rw [afterFormal, anonymous_associatePair, UInt32.le_iff_toNat_le]
  exact le_foldl_observe _ ctx

end Context

namespace Matching

variable {α β : Type} {candidate : β → Matching α} {reader : β → Context → Option (α × Context)}

/-- Candidates that do in place what readers do, change nothing if they fail and only add to the
context if they match. -/
structure Traceless (candidate : β → Matching α) (reader : β → Context → Option (α × Context)) :
    Prop where
  reads : ∀ b ctx, (candidate b).on ctx = settled ctx (reader b ctx)
  readsList : ∀ bs ctx, (first candidate bs).on ctx = settled ctx (bs.findSome? fun b => reader b ctx)
  failed : ∀ b ctx after, (candidate b).on ctx = (none, after) → after = ctx
  failedList : ∀ bs ctx after, (first candidate bs).on ctx = (none, after) → after = ctx
  dispatch : ∀ bs ctx, (first candidate bs).on ctx =
    match bs.find? fun b => ((candidate b).on ctx).1.isSome with
    | some b => (candidate b).on ctx
    | none => (none, ctx)
  grows : ∀ b ctx a after, (candidate b).on ctx = (some a, after) → ctx.Grows after
  growsList : ∀ bs ctx a after, (first candidate bs).on ctx = (some a, after) → ctx.Grows after

theorem settled_none {ctx after : Context} {outcome : Option (α × Context)}
    (failed : settled ctx outcome = (none, after)) : after = ctx := by
  cases outcome with
  | none => exact (Prod.mk.inj failed).2.symm
  | some result => cases failed

theorem settled_some {ctx after : Context} {outcome : Option (α × Context)} {a : α}
    (found : settled ctx outcome = (some a, after)) : outcome = some (a, after) := by
  rcases outcome with _ | ⟨a', after'⟩
  · cases found
  · cases found
    rfl

theorem exists_of_settled {ctx : Context} {outcome : Option (α × Context)} {a : α}
    (found : (settled ctx outcome).1 = some a) : ∃ after, outcome = some (a, after) := by
  rcases outcome with _ | ⟨a', after⟩
  · cases found
  · cases found
    exact ⟨after, rfl⟩

theorem first_on_eq (failed : ∀ b ctx after, (candidate b).on ctx = (none, after) → after = ctx)
    (bs : List β) (ctx : Context) : (first candidate bs).on ctx =
      match bs.find? fun b => ((candidate b).on ctx).1.isSome with
      | some b => (candidate b).on ctx
      | none => (none, ctx) := by
  induction bs with
  | nil => rfl
  | cons b bs ih =>
    rw [first_cons_on, List.find?_cons]
    rcases run : (candidate b).on ctx with ⟨_ | a, after⟩
    · obtain rfl := failed b ctx after run
      exact ih
    · exact run.symm

theorem Traceless.of_gives (gives : ∀ b ctx, (candidate b).Gives ctx (reader b ctx))
    (grows : ∀ b ctx a after, reader b ctx = some (a, after) → ctx.Grows after) :
    Traceless candidate reader := by
  have failed (b : β) (ctx after : Context) (run : (candidate b).on ctx = (none, after)) :
      after = ctx := settled_none ((gives b ctx).symm.trans run)
  have readsList (bs : List β) (ctx : Context) : (first candidate bs).on ctx =
      settled ctx (bs.findSome? fun b => reader b ctx) := first_gives fun b _ => gives b ctx
  constructor
  · exact gives
  · exact readsList
  · exact failed
  · exact fun bs ctx after run => settled_none ((readsList bs ctx).symm.trans run)
  · exact first_on_eq failed
  · exact fun b ctx a after run => grows b ctx a after (settled_some ((gives b ctx).symm.trans run))
  · intro bs ctx a after run
    have read := settled_some ((readsList bs ctx).symm.trans run)
    obtain ⟨b, -, read⟩ := List.exists_of_findSome?_eq_some read
    exact grows b ctx a after read

theorem Traceless.forall_first {P : Context → α → Context → Prop}
    (traceless : Traceless candidate reader)
    (single : ∀ b ctx a after, (candidate b).on ctx = (some a, after) → P ctx a after) :
    ∀ bs ctx a after, (first candidate bs).on ctx = (some a, after) → P ctx a after := by
  intro bs ctx a after run
  rw [traceless.dispatch] at run
  split at run
  · next b _ => exact single b ctx a after run
  · cases run

/-- Candidates that only declarations make a change. -/
structure ChangesByDeclaring (candidate : β → Matching Statement) : Prop where
  single : ∀ b ctx v after, (candidate b).on ctx = (some v, after) → v.isDeclaration = false →
    after = ctx
  list : ∀ bs ctx v after, (first candidate bs).on ctx = (some v, after) →
    v.isDeclaration = false → after = ctx

theorem Traceless.changesByDeclaring {candidate : β → Matching Statement}
    {read : β → Context → Option Statement}
    (traceless : Traceless candidate fun b ctx => (read b ctx).map (declared ctx)) :
    ChangesByDeclaring candidate := by
  have single (b : β) (ctx : Context) (v : Statement) (after : Context)
      (run : (candidate b).on ctx = (some v, after)) (plain : v.isDeclaration = false) :
      after = ctx := by
    obtain ⟨-, rfl⟩ := eq_leaving_of_map (settled_some ((traceless.reads b ctx).symm.trans run))
    exact ctx.declare_eq_self plain
  exact ⟨single, traceless.forall_first single⟩

/-- Candidates that take the counter of anonymous names back just under a condition. -/
structure LowersWhen (candidate : β → Matching α) (lowers : Context → α → Prop) : Prop where
  single : ∀ b ctx a after, (candidate b).on ctx = (some a, after) →
    (after.anonymous < ctx.anonymous ↔ lowers ctx a)
  list : ∀ bs ctx a after, (first candidate bs).on ctx = (some a, after) →
    (after.anonymous < ctx.anonymous ↔ lowers ctx a)

theorem Traceless.lowersWhen {lowers : Context → α → Prop} (traceless : Traceless candidate reader)
    (counter : ∀ b ctx a after, reader b ctx = some (a, after) →
      (after.anonymous < ctx.anonymous ↔ lowers ctx a)) : LowersWhen candidate lowers := by
  have single (b : β) (ctx : Context) (a : α) (after : Context)
      (run : (candidate b).on ctx = (some a, after)) :
      after.anonymous < ctx.anonymous ↔ lowers ctx a :=
    counter b ctx a after (settled_some ((traceless.reads b ctx).symm.trans run))
  exact ⟨single, traceless.forall_first single⟩

theorem Traceless.lowersWhen_declared {candidate : β → Matching Statement}
    {read : β → Context → Option Statement}
    (traceless : Traceless candidate fun b ctx => (read b ctx).map (declared ctx)) :
    LowersWhen candidate fun _ _ => False := by
  apply traceless.lowersWhen
  intro b ctx v after found
  obtain ⟨-, rfl⟩ := eq_leaving_of_map found
  rw [Context.anonymous_declare]
  exact iff_of_false (UInt32.lt_irrefl _) not_false

/-- As long as there are numbers left, the counter is not taken back by whatever comes of trying a
list of candidates. -/
theorem LowersWhen.le_first {lowers : Context → α → Prop} (counter : LowersWhen candidate lowers)
    (traceless : Traceless candidate reader) {bs : List β} {ctx : Context}
    (keeps : ∀ a, ¬lowers ctx a) : ctx.anonymous ≤ ((first candidate bs).on ctx).2.anonymous := by
  rcases run : (first candidate bs).on ctx with ⟨_ | a, after⟩
  · obtain rfl := traceless.failedList bs ctx after run
    exact UInt32.le_refl _
  · have kept := mt (counter.list bs ctx a after run).mp (keeps a)
    exact UInt32.not_lt.mp kept

end Matching

open Matching (Traceless ChangesByDeclaring LowersWhen)

theorem Context.Grows.of_declared {read : Option Statement} {ctx after : Context} {v : Statement}
    (found : read.map (declared ctx) = some (v, after)) : ctx.Grows after := by
  obtain ⟨-, rfl⟩ := eq_leaving_of_map found
  exact declare ctx v

namespace Kind

theorem matchNatural_traceless (inMath : Bool) (s : Text) :
    Traceless (matchNatural inMath s) fun k ctx => k.readNatural? ctx inMath s :=
  .of_gives (fun k ctx => k.matchNatural_gives ctx inMath s)
    fun _ _ _ _ => Context.Grows.of_declared

theorem matchFormal_traceless (s : Text) :
    Traceless (matchFormal s) fun k ctx => k.readFormal? ctx s :=
  .of_gives (fun k ctx => k.matchFormal_gives ctx s) fun _ _ _ _ => Context.Grows.of_declared

end Kind

namespace TacticKind

theorem matchNatural_traceless (s : Text) :
    Traceless (matchNatural s) fun k ctx => k.readNatural? ctx s := by
  apply Traceless.of_gives fun k ctx => k.matchNatural_gives ctx s
  intro k ctx t after found
  obtain ⟨-, rfl⟩ := eq_leaving_of_map found
  exact Context.Grows.afterNatural ctx t

theorem matchFormal_traceless (s : Text) :
    Traceless (matchFormal s) fun k ctx => k.readFormal? ctx s := by
  apply Traceless.of_gives fun k ctx => k.matchFormal_gives ctx s
  intro k ctx t after found
  obtain ⟨-, rfl⟩ := eq_leaving_of_map found
  exact Context.Grows.afterFormal ctx t

theorem matchNatural_lowersWhen (s : Text) : LowersWhen (matchNatural s)
    fun ctx t => ¬ctx.HasRoom ∧ t.hypothesis?.isSome = true := by
  apply (matchNatural_traceless s).lowersWhen
  intro k ctx t after found
  obtain ⟨-, rfl⟩ := eq_leaving_of_map found
  exact ctx.afterNatural_lt_iff t

theorem matchFormal_lowersWhen (s : Text) : LowersWhen (matchFormal s) fun _ _ => False := by
  apply (matchFormal_traceless s).lowersWhen
  intro k ctx t after found
  obtain ⟨-, rfl⟩ := eq_leaving_of_map found
  exact iff_of_false (UInt32.not_lt.mpr (ctx.le_afterFormal t)) not_false

end TacticKind

/-- Matching statements and tactics in either language leaves no trace in the context where it fails,
and adds to it where it succeeds; only declarations change it among statements.  The counter of
anonymous names is taken back only by a tactic in natural language that mints a name when there is no
number left. -/
theorem matching_traceless (inMath : Bool) (s : Text) :
    Traceless (Kind.matchNatural inMath s) (fun k ctx => k.readNatural? ctx inMath s) ∧
      Traceless (Kind.matchFormal s) (fun k ctx => k.readFormal? ctx s) ∧
      Traceless (TacticKind.matchNatural s) (fun k ctx => k.readNatural? ctx s) ∧
      Traceless (TacticKind.matchFormal s) (fun k ctx => k.readFormal? ctx s) ∧
      ChangesByDeclaring (Kind.matchNatural inMath s) ∧ ChangesByDeclaring (Kind.matchFormal s) ∧
      LowersWhen (Kind.matchNatural inMath s) (fun _ _ => False) ∧
      LowersWhen (Kind.matchFormal s) (fun _ _ => False) ∧
      LowersWhen (TacticKind.matchNatural s)
        (fun ctx t => ¬ctx.HasRoom ∧ t.hypothesis?.isSome = true) ∧
      LowersWhen (TacticKind.matchFormal s) fun _ _ => False := by
  have natural := Kind.matchNatural_traceless inMath s
  have formal := Kind.matchFormal_traceless s
  exact ⟨natural, formal, TacticKind.matchNatural_traceless s, TacticKind.matchFormal_traceless s,
    natural.changesByDeclaring, formal.changesByDeclaring, natural.lowersWhen_declared,
    formal.lowersWhen_declared, TacticKind.matchNatural_lowersWhen s,
    TacticKind.matchFormal_lowersWhen s⟩

/-- A formal line brings in the largest number, and a line in natural language after it takes the
counter back. -/
theorem counter_taken_back : ¬∀ (k : TacticKind) (s : Text) (ctx : Context) (t : Tactic)
    (after : Context), (TacticKind.matchNatural s k).on ctx = (some t, after) →
      ctx.anonymous ≤ after.anonymous := by
  intro kept
  let ctx := ((TacticKind.matchFormal "have A4294967295 := H1 n" .choosePoint).on .empty).2
  have run : (TacticKind.matchNatural "Let's choose m in H2" .choosePoint).on ctx =
      (some (.choosePoint "A0" "H2" "m"), .empty) := by decide +kernel
  have later := kept _ _ ctx _ _ run
  exact absurd later (by decide +kernel)

end ProofDesk.Limits
