import ProofDesk.Limits.Preparation
import ProofDesk.Limits.TacticReading

namespace ProofDesk.Limits

inductive SessionError where
  | hypothesis (text : Text)
  | goal (text : Text)
  | line (text : Text)
  | noGoal
  deriving DecidableEq, Repr

def SessionError.message : SessionError → Text
  | hypothesis text => "unrecognized hypothesis: " ++ text
  | goal text => "unrecognized goal: " ++ text
  | line text => "unrecognized proof line: " ++ text
  | noGoal => "the goal must be set before the proof"

structure ProofLine where
  tactic : Tactic
  context : Context
  deriving DecidableEq, Repr

structure Session where
  name : Text
  context : Context := .empty
  hypotheses : List Statement := []
  goal : Option Statement := none
  /-- The context when the goal was set. -/
  initialContext : Context := .empty
  proof : List ProofLine := []
  deriving DecidableEq, Repr

namespace Context

def advance (ctx : Context) (t : Tactic) : Context :=
  match ctx.goal.bind t.nextGoal? with
  | some goal => { ctx with goal := some goal }
  | none => ctx

end Context

namespace Session

def start (name : Text) : Session := { name := name }

def addHypothesis (s : Session) (text : Text) : Except SessionError Session :=
  match readNatural? Kind.hypotheses s.context false (prepare text) with
  | none => .error (.hypothesis (prepare text))
  | some (v, ctx) => .ok { s with hypotheses := s.hypotheses ++ [v], context := ctx }

def setGoal (s : Session) (text : Text) : Except SessionError Session :=
  match readNatural? Kind.goals s.context false (prepare text) with
  | none => .error (.goal (prepare text))
  | some (v, ctx) =>
    let ctx := { ctx with goal := some v }
    .ok { s with goal := some v, initialContext := ctx, context := ctx }

def addLine (s : Session) (text : Text) : Except SessionError Session :=
  if s.goal.isNone then .error .noGoal
  else match Tactic.readNatural? s.context (prepare text) with
    | none => .error (.line (prepare text))
    | some (tactic, ctx) =>
      let ctx := ctx.advance tactic
      .ok { s with proof := s.proof ++ [⟨tactic, ctx⟩], context := ctx }

/-- The names of hypotheses, counted from the given number on.  Declarations have none.  There is no
largest number here; counting with signed numbers of 32 bits gives the same names as long as fewer than
2^31 hypotheses have one. -/
def namesFrom : Nat → List Statement → List (Option Text)
  | _, [] => []
  | n, v :: vs =>
    if v.isDeclaration then none :: namesFrom n vs
    else some ('H' :: Text.ofNat n) :: namesFrom (n + 1) vs

def hypothesisNames (s : Session) : List (Option Text) := namesFrom 1 s.hypotheses

end Session
end ProofDesk.Limits
