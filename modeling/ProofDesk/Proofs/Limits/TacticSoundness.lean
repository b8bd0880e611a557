import ProofDesk.Proofs.Limits.Anonymous
import ProofDesk.Proofs.Limits.LegibleTactics
import ProofDesk.Proofs.Limits.NaturalSoundness

namespace ProofDesk.Limits

open Text (isName)
namespace Tactic

def NamesTolerance : Tactic → Prop
  | fixTolerance ident _ => ident.NamesTolerance
  | chooseIndex _ eps _ _ _ => eps.NamesTolerance
  | byProperties _ sentence => sentence.NamesTolerance
  | bySentence _ sentence _ _ => sentence.NamesTolerance
  | _ => False

/-- The hypothesis that is cited is called as a justification begins in formal text. -/
def CitesBy : Tactic → Prop
  | bySentence _ _ source _ => source = ("by" : Text)
  | _ => False

/-- Nothing in a tactic has a meaning of its own in formal text. -/
def Ordinary (t : Tactic) : Prop := ¬t.NamesTolerance ∧ ¬t.CitesBy

theorem Formed.ordinary {ctx : Context} {t : Tactic} (formed : t.Formed ctx) : t.Ordinary := by
  cases formed with
  | fixTolerance leaf _ _ => exact ⟨leaf.not_namesTolerance, not_false⟩
  | chooseIndex leaf _ => exact ⟨leaf.not_namesTolerance, not_false⟩
  | byProperties _ _ body => exact ⟨body.not_namesTolerance, not_false⟩
  | bySentence _ _ body cites => exact ⟨body.not_namesTolerance, cites⟩
  | _ => exact ⟨not_false, not_false⟩

end Tactic

namespace Natural

variable {ctx : Context} {t : Tactic}

theorem isName_nextName (ctx : Context) : isName ctx.nextName = true := isName_anonymousName _

/-- The sound results of a reader: their hypotheses are named by the context, and if ordinary they
have a formal text. -/
def Sound (ctx : Context) (t : Tactic) : Prop :=
  t.NamedBy ctx ∧ (t.Ordinary → t.Formed ctx)

theorem namedBy_of_next (next : t.hypothesis? = some ctx.nextName)
    (none' : t.toleranceHypothesis? = none) : t.NamedBy ctx := by
  constructor
  · intro hyp member
    rw [next] at member
    exact (Option.mem_some_iff.mp member).symm
  · intro hyp member
    rw [none'] at member
    cases member

theorem namedBy_of_none (none' : t.hypothesis? = none)
    (noTolerance : t.toleranceHypothesis? = none) : t.NamedBy ctx := by
  constructor
  · intro hyp member
    rw [none'] at member
    cases member
  · intro hyp member
    rw [noTolerance] at member
    cases member

end Natural

namespace Tactic

open Natural (isName_nextName namedBy_of_next namedBy_of_none)

variable {ctx : Context} {t : Tactic} {used : Nat → Prop}

theorem Legible.namedBy (legible : t.Legible ctx) : t.NamedBy ctx := by
  cases legible with
  | chooseIndex _ _ associated =>
    constructor
    · intro hyp member
      exact (Option.mem_some_iff.mp member).symm
    · intro hyp member
      cases Option.mem_some_iff.mp member
      exact ⟨_, associated⟩
  | fixTolerance _ _ => exact namedBy_of_next rfl rfl
  | byProperties _ _ => exact namedBy_of_next rfl rfl
  | fixIndex _ _ => exact namedBy_of_next rfl rfl
  | bySentence _ _ _ => exact namedBy_of_next rfl rfl
  | choosePoint _ => exact namedBy_of_next rfl rfl
  | _ => exact namedBy_of_none rfl rfl

theorem Legible.formed (numbered : ctx.Numbered used) (legible : t.Legible ctx)
    (ordinary : t.Ordinary) : t.Formed ctx := by
  have next := isName_nextName ctx
  cases legible with
  | fixTolerance tolerance goal => exact .fixTolerance (tolerance.formed ordinary.1) next goal
  | @chooseIndex eps limitDef hypEps chosen tolerance valid associated =>
    obtain ⟨n, -, rfl⟩ := numbered _ _ associated
    have validChosen := valid chosen (by simp)
    have validLimit := valid limitDef (by simp)
    exact .chooseIndex (tolerance.formed ordinary.1)
      (by simp [validChosen, validLimit, isName_anonymousName, next])
  | letMax valid => exact .letMax valid
  | claim valid => exact .claim valid
  | byProperties inequality body => exact .byProperties next inequality (body.formed ordinary.1)
  | fixIndex valid goal => exact .fixIndex (by simp [valid, next]) goal
  | bySentence valid inequality body =>
    exact .bySentence (List.forall_mem_cons.mpr ⟨next, valid⟩) inequality (body.formed ordinary.1)
      ordinary.2
  | @choosePoint source point valid =>
    have validPoint := valid point (by simp)
    have validSource := valid source (by simp)
    exact .choosePoint (by simp [validPoint, validSource, next])
  | absoluteValue given valid => exact .absoluteValue given valid
  | separate valid => exact .separate valid
  | splitGoal => exact .splitGoal
  | splitAll => exact .splitAll
  | linearArithmetic => exact .linearArithmetic

end Tactic

/-- A proof line in natural language has its hypotheses named by the context, and a formal text if
nothing in it has a meaning of its own there. -/
theorem TacticKind.sound_of_natural? {k : TacticKind} {ctx : Context} {s : Text} {t : Tactic}
    {used : Nat → Prop} (numbered : ctx.Numbered used) (read : k.natural? ctx s = some t) :
    Natural.Sound ctx t := by
  obtain ⟨-, legible, -⟩ := TacticKind.found_of_natural? read
  exact ⟨legible.namedBy, legible.formed numbered⟩

end ProofDesk.Limits
