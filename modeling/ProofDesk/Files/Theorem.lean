import ProofDesk.Json.Reader
import ProofDesk.Limits.Session

namespace ProofDesk.Files

open Limits (Session SessionError)

structure TheoremFile where
  name : Text
  hypotheses : List Text
  goal : Text
  proof : List Text := []
  deriving DecidableEq, Repr

namespace TheoremFile

def ofJson? (v : Json.Value) : Option TheoremFile := do
  match ← v.fields? ["name", "hypotheses", "goal", "proof"] 3 with
  | [some name, some hypotheses, some goal, proof] =>
    return {
      name := ← name.text?
      hypotheses := ← hypotheses.texts?
      goal := ← goal.text?
      proof := ← (proof.getD (.array [])).texts? }
  | _ => none

def read? (s : Text) : Option TheoremFile := (Json.read? s).bind ofJson?

def session (t : TheoremFile) : Except SessionError Session := do
  let s ← t.hypotheses.foldlM Session.addHypothesis (Session.start t.name)
  let s ← s.setGoal t.goal
  t.proof.foldlM Session.addLine s

end TheoremFile
end ProofDesk.Files
