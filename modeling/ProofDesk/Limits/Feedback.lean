import ProofDesk.Limits.CheckerState
import ProofDesk.Limits.Rendering

namespace ProofDesk.Limits

structure Response where
  states : List Text
  error : Option Text
  deriving DecidableEq, Repr

inductive CheckerError where
  | timeout (seconds : Nat)
  | unexpected (reason : Text)
  | unavailable (reason : Text)
  deriving DecidableEq, Repr

def CheckerError.message : CheckerError → Text
  | timeout seconds => "Lean did not answer within " ++ Text.ofNat seconds ++ " seconds"
  | unexpected reason => "unexpected answer from Lean: " ++ reason
  | unavailable reason => "Lean process failed: " ++ reason

def defaultTimeout : Nat := 10

abbrev Checker := Text → List Nat → Except CheckerError Response

structure Feedback where
  hypothesisNames : List (Option Text)
  initialGoal : Text
  /-- The goal after each proof line, empty if there is none. -/
  goals : List Text
  sentences : List (List (Text × Text))
  error : Option Text
  deriving DecidableEq, Repr

/-- The goal of a proof state: in natural language if possible, else as it is shown. -/
def tellGoal (ctx : Context) (state : Text) : Text :=
  match goalOf? state with
  | some goal => (goalNatural? ctx goal).getD goal
  | none => []

def tellName? (ctx : Context) (state x : Text) : Option (Text × Text) :=
  ((typeOf? state x).bind (typeNatural? ctx x)).map fun sentence => (x, sentence)

def tellNames (line : ProofLine) (state : Text) : List (Text × Text) :=
  line.tactic.exposed.filterMap (tellName? line.context state)

def accomplished : Text := "goals accomplished"

namespace Session

def laterGoals (s : Session) (r : Response) : List Text :=
  List.zipWith (fun state line => tellGoal line.context state) (r.states.drop 1) s.proof

def isDone (s : Session) (r : Response) : Bool :=
  ((s.laterGoals r).getLast?.map (·.isEmpty)).getD false &&
    (r.states.getLast?.map isAccomplished).getD false

def feedback (s : Session) (r : Response) : Feedback where
  hypothesisNames := s.hypothesisNames
  initialGoal := ((r.states.head?).map (tellGoal s.initialContext)).getD []
  goals := s.laterGoals r
  sentences := List.zipWith (fun state line => tellNames line state) (r.states.drop 1) s.proof
  error :=
    match r.error with
    | some message => some (errorText message)
    | none => if s.isDone r then some accomplished else none

inductive AskError where
  | session (e : SessionError)
  | checker (e : CheckerError)
  deriving DecidableEq, Repr

def ask (s : Session) (checker : Checker) : Except AskError Feedback :=
  match s.render with
  | .error e => .error (.session e)
  | .ok rendering =>
    match checker rendering.text rendering.lines with
    | .error e => .error (.checker e)
    | .ok response => .ok (s.feedback response)

end Session
end ProofDesk.Limits
