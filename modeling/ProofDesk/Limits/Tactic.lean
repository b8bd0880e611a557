import ProofDesk.Limits.Formal
import ProofDesk.Limits.Natural

namespace ProofDesk.Limits

inductive Tactic where
  | fixTolerance (ident : Statement) (hyp : Text)
  | chooseIndex (limitDef : Text) (eps : Statement) (hypEps chosen hypChosen : Text)
  | letMax (ident left right : Text)
  | claim (x : Text)
  | byProperties (hyp : Text) (sentence : Statement)
  | fixIndex (ident hyp : Text)
  | bySentence (hyp : Text) (sentence : Statement) (source point : Text)
  /-- Take what a hypothesis says at a point without stating it. -/
  | choosePoint (hyp source point : Text)
  /-- Unfold absolute values in hypotheses and in the goal, which is denoted by `goal`. -/
  | absoluteValue (names : List Text)
  | separate (x : Text)
  | splitGoal
  | splitAll
  | linearArithmetic
  deriving DecidableEq, Repr

inductive TacticKind where
  | fixTolerance
  | chooseIndex
  | letMax
  | claim
  | byProperties
  | fixIndex
  | bySentence
  | choosePoint
  | absoluteValue
  | separate
  | splitGoal
  | splitAll
  | linearArithmetic
  deriving DecidableEq, Repr

def TacticKind.all : List TacticKind := [
  splitAll, splitGoal, letMax, fixTolerance, fixIndex, chooseIndex, choosePoint, claim,
  byProperties, bySentence, absoluteValue, separate, linearArithmetic]

def goalName : Text := "goal"

namespace Tactic

def kind : Tactic → TacticKind
  | fixTolerance _ _ => .fixTolerance
  | chooseIndex _ _ _ _ _ => .chooseIndex
  | letMax _ _ _ => .letMax
  | claim _ => .claim
  | byProperties _ _ => .byProperties
  | fixIndex _ _ => .fixIndex
  | bySentence _ _ _ _ => .bySentence
  | choosePoint _ _ _ => .choosePoint
  | absoluteValue _ => .absoluteValue
  | separate _ => .separate
  | splitGoal => .splitGoal
  | splitAll => .splitAll
  | linearArithmetic => .linearArithmetic

def hypothesis? : Tactic → Option Text
  | fixTolerance _ hyp => some hyp
  | chooseIndex _ _ _ _ hyp => some hyp
  | byProperties hyp _ => some hyp
  | fixIndex _ hyp => some hyp
  | bySentence hyp _ _ _ => some hyp
  | choosePoint hyp _ _ => some hyp
  | _ => none

def toleranceHypothesis? : Tactic → Option Text
  | chooseIndex _ _ hypEps _ _ => some hypEps
  | _ => none

def association? : Tactic → Option (Text × Text)
  | fixTolerance ident hyp => some (ident.formal, hyp)
  | chooseIndex _ _ _ chosen hyp => some (chosen, hyp)
  | _ => none

/-- The names whose types are shown in the state after a tactic. -/
def exposed : Tactic → List Text
  | fixTolerance _ hyp => [hyp]
  | chooseIndex _ _ _ _ hyp => [hyp]
  | byProperties hyp _ => [hyp]
  | bySentence hyp _ _ _ => [hyp]
  | choosePoint hyp _ _ => [hyp]
  | fixIndex ident hyp => [ident, hyp]
  | letMax ident _ _ => [ident]
  | absoluteValue names => names.filter fun x => x != goalName
  | claim _ | separate _ | splitGoal | splitAll | linearArithmetic => []

def terminator : Tactic → Text
  | splitAll => []
  | _ => ","

/-- What is to be shown about a limit once its tolerance is fixed: from some index on, the terms of
the sequence are near to the limit. -/
def nearFrom (seq limit : Text) (tolerance : Statement) : Statement :=
  .thereIs "N" (.forAllFrom "n" "N"
    (.inequality (.distance (.application seq "n") (.identifier limit)) .lt tolerance))

def nextGoal? : Tactic → Statement → Option Statement
  | fixTolerance ident _, .limit seq l => some (nearFrom seq l ident)
  | claim x, .thereIs y body => some (body.rename y x)
  | fixIndex ident _, .forAllFrom var _ body => some (body.rename var ident)
  | _, _ => none

end Tactic

namespace Context

def associatePair (ctx : Context) : Option (Text × Text) → Context
  | some (x, hyp) => ctx.associate x hyp
  | none => ctx

/-- The context after a tactic in natural language, whose hypothesis has just been named. -/
def afterNatural (ctx : Context) (t : Tactic) : Context :=
  (if t.hypothesis?.isSome then ctx.mint else ctx).associatePair t.association?

/-- The context after a tactic in formal text, whose hypotheses are named there. -/
def afterFormal (ctx : Context) (t : Tactic) : Context :=
  ((t.toleranceHypothesis?.toList ++ t.hypothesis?.toList).foldl observe ctx).associatePair
    t.association?

end Context

namespace Formal

def fixForm : Template := ["intros ", .name, " ", .name]

def chooseIndexForm : Template :=
  ["cases ", .name, " ", .name, " ", .name, " with ", .name, " ", .name]

def letMaxForm : Template := ["let ", .name, " := max ", .name, " ", .name]

def claimForm : Template := ["use ", .name]

def haveHeader : Template := ["have ", .name, " : "]

def byPropertiesEnd : Text := " := by obvious_ineq"

def choosePointForm : Template := ["have ", .name, " := ", .name, " ", .name]

def separateForm : Template := ["cases ", .name]

def absoluteValueStart : Text := "rw abs_sub_lt_iff at"

end Formal

def Tactic.formal : Tactic → Text
  | fixTolerance ident hyp => Formal.fixForm.fill [ident.formal, hyp]
  | chooseIndex limitDef eps hypEps chosen hypChosen =>
    Formal.chooseIndexForm.fill [limitDef, eps.formal, hypEps, chosen, hypChosen]
  | letMax ident left right => Formal.letMaxForm.fill [ident, left, right]
  | claim x => Formal.claimForm.fill [x]
  | byProperties hyp sentence =>
    Formal.haveHeader.fill [hyp] ++ sentence.formal ++ Formal.byPropertiesEnd
  | fixIndex ident hyp => Formal.fixForm.fill [ident, hyp]
  | bySentence hyp sentence source point =>
    Formal.haveHeader.fill [hyp] ++ sentence.formal ++ " := " ++ source ++ " " ++ point
  | choosePoint hyp source point => Formal.choosePointForm.fill [hyp, source, point]
  | absoluteValue names =>
    Formal.absoluteValueStart ++ " " ++
      Text.joinWith " " (names.map fun x => if x = goalName then Formal.turnstile else x)
  | separate x => Formal.separateForm.fill [x]
  | splitGoal => "split"
  | splitAll => "split;"
  | linearArithmetic => "linarith"

namespace Natural

def letMaxForm (before after : Text) : Template :=
  ["Let $", .name, .lit (" = \\max" ++ before ++ "\\left("), .name, ", ", .name,
    .lit (after ++ "\\right)$")]

def claimForm : Template := ["We claim $", .name, "$ works"]

def byPropertiesStart : Text := "By inequality properties, "

def fixStart : Text := "Let $"

def fixIndexForm : Template := ["Let $", .name, "$"]

def chooseIndexHeader : Template := ["Let's choose $", .name, "$ such that ", .name, " uses $"]

def choosePointForm : Template := ["Let's choose ", .name, " in ", .name]

def separateForm : Template := ["Let's separate ", .name]

def absoluteValueStart : Text := "Let's use absolute value inequality property on"

def splitGoalText : Text := "Let's split the goal"

def splitAllText : Text := "Let's split the goal and do on all subgoals"

def linearArithmeticText : Text := "By linear arithmetic"

end Natural

def Tactic.natural : Tactic → Text
  | fixTolerance ident _ => "Let " ++ ident.natural false
  | chooseIndex limitDef eps _ chosen _ =>
    "Let's choose $" ++ chosen ++ "$ such that " ++ limitDef ++ " uses " ++ eps.natural false
  | letMax ident left right => (Natural.letMaxForm [] []).fill [ident, left, right]
  | claim x => Natural.claimForm.fill [x]
  | byProperties _ sentence => Natural.byPropertiesStart ++ sentence.natural false
  | fixIndex ident _ => Natural.fixIndexForm.fill [ident]
  | bySentence _ sentence source point =>
    sentence.natural false ++ " by " ++ source ++ " with " ++ point
  | choosePoint _ source point => Natural.choosePointForm.fill [point, source]
  | absoluteValue names =>
    let firsts := Text.joinWith " " names.dropLast
    let last := names.getLast?.getD goalName
    Natural.absoluteValueStart ++ (if firsts.isEmpty then [] else ' ' :: firsts) ++
      (" and on " : Text) ++ last
  | separate x => Natural.separateForm.fill [x]
  | splitGoal => Natural.splitGoalText
  | splitAll => Natural.splitAllText
  | linearArithmetic => Natural.linearArithmeticText

end ProofDesk.Limits
