import ProofDesk.Proofs.Limits.Traces

namespace ProofDesk.Limits

open Matching (Gives on_bind on_lift)

variable {ctx : Context} {s : Text}

theorem Matching.on_require (gate : Context → Bool) :
    (require gate).on ctx = (if gate ctx then some ⟨⟩ else none, ctx) := rfl

theorem matchNatural_inequality_on (inMath : Bool) (s : Text) (ctx : Context) :
    (Kind.inequality.matchNatural inMath s).on ctx = (Kind.inequality.natural? ctx inMath s, ctx) :=
  Kind.matchNatural_reads (by decide) inMath

theorem matchFormal_inequality_on (s : Text) (ctx : Context) :
    (Kind.inequality.matchFormal s).on ctx = (Formal.readInequality? ctx s, ctx) :=
  Kind.matchFormal_reads (by decide)

theorem idents_plain : ∀ k ∈ Kind.idents, k ∉ Kind.declarations := by decide

theorem ident_reads {part : Kind → Matching Statement} {reader : Kind → Option Statement}
    {tolerance : Prop} [Decidable tolerance]
    (parts : ∀ k ∈ Kind.idents, (part k).Reads ctx (reader k))
    (epsilon : reader .epsilon = if tolerance then some .epsilon else none)
    (identifier : reader .identifier = identifier? s) :
    (Matching.first part Kind.idents >>= fun v => Matching.lift v.ident?).Reads ctx
      ((if tolerance then some Statement.epsilon else none).or (identifier? s)) := by
  have tried : (Matching.first part Kind.idents).Reads ctx
      ((if tolerance then some Statement.epsilon else none).or (identifier? s)) := by
    have found := Matching.first_reads parts
    rw [Kind.idents, findSome?_cons_or, findSome?_cons_or, List.findSome?_nil, Option.or_none,
      epsilon, identifier] at found
    exact found
  have named : ((if tolerance then some Statement.epsilon else none).or (identifier? s)).bind
      Statement.ident? = (if tolerance then some Statement.epsilon else none).or (identifier? s) := by
    by_cases given : tolerance
    · rw [if_pos given]
      rfl
    · rw [if_neg given, identifier?]
      cases Text.isName s <;> rfl
  rw [← named]
  exact Matching.Reads.bind tried fun v => rfl

namespace Natural

theorem matchIdent_on (s : Text) (ctx : Context) : (matchIdent s).on ctx = (readIdent? s, ctx) :=
  ident_reads (fun k member => Kind.matchNatural_reads (idents_plain k member) true) rfl rfl

theorem matchFixTolerance_gives : (matchFixTolerance s).Gives ctx
    ((readFixTolerance? ctx s).map fun t => (t, ctx.afterNatural t)) := by
  unfold matchFixTolerance readFixTolerance? Gives
  rw [on_bind, on_lift]
  cases Text.between? fixStart "$" s with
  | none => rfl
  | some text =>
    -- the goal is looked at before the name is matched
    simp only [on_bind, Matching.on_require, matchIdent_on, Option.bind_eq_bind, Option.bind_some]
    cases ctx.hasLimitGoal <;> cases readIdent? text <;> rfl

theorem matchChooseIndex_gives : (matchChooseIndex s).Gives ctx
    ((readChooseIndex? ctx s).map fun t => (t, ctx.afterNatural t)) := by
  unfold matchChooseIndex readChooseIndex? Gives
  rw [on_bind, on_lift]
  rcases chooseIndexHeader.read? s with
    _ | ⟨_ | ⟨chosen, _ | ⟨limitDef, _ | ⟨_, _⟩⟩⟩, rest⟩ <;> try rfl
  dsimp only
  rw [on_bind, on_lift]
  cases Text.stripTrailing? "$" rest with
  | none => rfl
  | some text =>
    simp only [on_bind, matchIdent_on, Option.bind_eq_bind, Option.bind_some]
    cases readIdent? text with
    | none => rfl
    | some eps =>
      dsimp only
      rw [Matching.on_look, Option.bind_some]
      cases ctx.associate? eps.formal <;> rfl

theorem matchByProperties_gives : (matchByProperties s).Gives ctx
    ((readByProperties? ctx s).map fun t => (t, ctx.afterNatural t)) := by
  unfold matchByProperties readByProperties? Gives
  rw [on_bind, on_lift]
  cases (Text.stripLeading? byPropertiesStart s).filter isLine with
  | none => rfl
  | some rest =>
    simp only [on_bind, matchNatural_inequality_on, Option.bind_eq_bind, Option.bind_some]
    cases Kind.inequality.natural? ctx false rest <;> rfl

theorem matchFixIndex_gives : (matchFixIndex s).Gives ctx
    ((readFixIndex? ctx s).map fun t => (t, ctx.afterNatural t)) := by
  unfold matchFixIndex readFixIndex? Gives
  rw [on_bind, on_lift]
  rcases fixIndexForm.match? s with _ | ⟨_ | ⟨ident, _ | ⟨_, _⟩⟩⟩ <;> try rfl
  dsimp only
  rw [on_bind, Matching.on_require]
  cases ctx.hasIndexGoal <;> rfl

theorem matchBySentence_gives : (matchBySentence s).Gives ctx
    ((readBySentence? ctx s).map fun t => (t, ctx.afterNatural t)) := by
  unfold matchBySentence readBySentence? Gives
  rw [on_bind, on_lift]
  rcases beforeTail? " by " [.name, " with ", .name] s with
    _ | ⟨left, _ | ⟨source, _ | ⟨point, _ | ⟨_, _⟩⟩⟩⟩ <;> try rfl
  simp only [on_bind, matchNatural_inequality_on]
  cases Kind.inequality.natural? ctx false left <;> rfl

theorem matchChoosePoint_gives : (matchChoosePoint s).Gives ctx
    ((readChoosePoint? ctx s).map fun t => (t, ctx.afterNatural t)) := by
  unfold matchChoosePoint readChoosePoint? Gives
  rw [on_bind, on_lift]
  rcases choosePointForm.match? s with _ | ⟨_ | ⟨point, _ | ⟨source, _ | ⟨_, _⟩⟩⟩⟩ <;> rfl

end Natural

namespace Formal

theorem matchIdent_on (s : Text) (ctx : Context) : (matchIdent s).on ctx = (readIdent? s, ctx) :=
  ident_reads (fun k member => Kind.matchFormal_reads (idents_plain k member)) rfl rfl

theorem matchFixTolerance_gives : (matchFixTolerance s).Gives ctx
    ((readFixTolerance? ctx s).map fun t => (t, ctx.afterFormal t)) := by
  unfold matchFixTolerance readFixTolerance? Gives
  rw [on_bind, on_lift]
  rcases fixForm.match? s with _ | ⟨_ | ⟨text, _ | ⟨hyp, _ | ⟨_, _⟩⟩⟩⟩ <;> try rfl
  simp only [on_bind, Matching.on_require, matchIdent_on]
  cases ctx.hasLimitGoal <;> cases readIdent? text <;> rfl

theorem matchChooseIndex_gives : (matchChooseIndex s).Gives ctx
    ((readChooseIndex? s).map fun t => (t, ctx.afterFormal t)) := by
  unfold matchChooseIndex readChooseIndex? Gives
  rw [on_bind, on_lift]
  rcases chooseIndexForm.match? s with
    _ | ⟨_ | ⟨limitDef, _ | ⟨text, _ | ⟨hypEps, _ | ⟨chosen, _ | ⟨hypChosen, _ | ⟨_, _⟩⟩⟩⟩⟩⟩⟩ <;> try rfl
  simp only [on_bind, matchIdent_on]
  cases readIdent? text <;> rfl

theorem matchByProperties_gives : (matchByProperties s).Gives ctx
    ((readByProperties? ctx s).map fun t => (t, ctx.afterFormal t)) := by
  unfold matchByProperties readByProperties? Gives
  rw [on_bind, on_lift]
  rcases haveHeader.read? s with _ | ⟨_ | ⟨hyp, _ | ⟨_, _⟩⟩, rest⟩ <;> try rfl
  dsimp only
  rw [on_bind, on_lift]
  cases (Text.stripTrailing? byPropertiesEnd rest).filter isLine with
  | none => rfl
  | some text =>
    simp only [on_bind, matchFormal_inequality_on, Option.bind_eq_bind, Option.bind_some]
    cases readInequality? ctx text <;> rfl

theorem matchFixIndex_gives : (matchFixIndex s).Gives ctx
    ((readFixIndex? ctx s).map fun t => (t, ctx.afterFormal t)) := by
  unfold matchFixIndex readFixIndex? Gives
  rw [on_bind, on_lift]
  rcases fixForm.match? s with _ | ⟨_ | ⟨ident, _ | ⟨hyp, _ | ⟨_, _⟩⟩⟩⟩ <;> try rfl
  dsimp only
  rw [on_bind, Matching.on_require]
  cases ctx.hasIndexGoal <;> rfl

theorem matchBySentence_gives : (matchBySentence s).Gives ctx
    ((readBySentence? ctx s).map fun t => (t, ctx.afterFormal t)) := by
  unfold matchBySentence readBySentence? Gives
  rw [on_bind, on_lift]
  rcases haveHeader.read? s with _ | ⟨_ | ⟨hyp, _ | ⟨_, _⟩⟩, rest⟩ <;> try rfl
  dsimp only
  rw [on_bind, on_lift]
  rcases beforeTail? " := " [.name, " ", .name] rest with
    _ | ⟨left, _ | ⟨source, _ | ⟨point, _ | ⟨_, _⟩⟩⟩⟩ <;> try rfl
  by_cases justified : source = ("by" : Text)
  · simp only [if_pos justified]
    rfl
  · simp only [if_neg justified, on_bind, matchFormal_inequality_on]
    cases readInequality? ctx left <;> rfl

theorem matchChoosePoint_gives : (matchChoosePoint s).Gives ctx
    ((readChoosePoint? s).map fun t => (t, ctx.afterFormal t)) := by
  unfold matchChoosePoint readChoosePoint? Gives
  rw [on_bind, on_lift]
  rcases choosePointForm.match? s with
    _ | ⟨_ | ⟨hyp, _ | ⟨source, _ | ⟨point, _ | ⟨_, _⟩⟩⟩⟩⟩ <;> rfl

end Formal

namespace TacticKind

def unnamed : List TacticKind :=
  [letMax, claim, absoluteValue, separate, splitGoal, splitAll, linearArithmetic]

end TacticKind

theorem Context.after_unnamed (ctx : Context) {t : Tactic} (unnamed : t.kind ∈ TacticKind.unnamed) :
    ctx.afterNatural t = ctx ∧ ctx.afterFormal t = ctx := by
  cases t <;> first | exact ⟨rfl, rfl⟩ | exact absurd unnamed (by simp [Tactic.kind, TacticKind.unnamed])

namespace TacticKind

theorem matchNatural_gives (k : TacticKind) (ctx : Context) (s : Text) :
    (k.matchNatural s).Gives ctx (k.readNatural? ctx s) := by
  have looked (unnamed : k ∈ unnamed) :
      (Matching.look fun ctx => k.natural? ctx s).Gives ctx (k.readNatural? ctx s) := by
    apply Matching.look_gives
    intro t read
    obtain ⟨rfl, _⟩ := found_of_natural? read
    exact (ctx.after_unnamed unnamed).1
  cases k with
  | fixTolerance => exact Natural.matchFixTolerance_gives
  | chooseIndex => exact Natural.matchChooseIndex_gives
  | byProperties => exact Natural.matchByProperties_gives
  | fixIndex => exact Natural.matchFixIndex_gives
  | bySentence => exact Natural.matchBySentence_gives
  | choosePoint => exact Natural.matchChoosePoint_gives
  | _ => exact looked (by decide)

theorem matchFormal_gives (k : TacticKind) (ctx : Context) (s : Text) :
    (k.matchFormal s).Gives ctx (k.readFormal? ctx s) := by
  have looked (unnamed : k ∈ unnamed) :
      (Matching.look fun ctx => k.formal? ctx s).Gives ctx (k.readFormal? ctx s) := by
    apply Matching.look_gives
    intro t read
    obtain ⟨rfl, _⟩ := formed_of_formal? read
    exact (ctx.after_unnamed unnamed).2
  cases k with
  | fixTolerance => exact Formal.matchFixTolerance_gives
  | chooseIndex => exact Formal.matchChooseIndex_gives
  | byProperties => exact Formal.matchByProperties_gives
  | fixIndex => exact Formal.matchFixIndex_gives
  | bySentence => exact Formal.matchBySentence_gives
  | choosePoint => exact Formal.matchChoosePoint_gives
  | _ => exact looked (by decide)

end TacticKind
end ProofDesk.Limits
