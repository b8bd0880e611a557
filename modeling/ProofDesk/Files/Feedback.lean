import ProofDesk.Json.Value
import ProofDesk.Limits.Feedback

namespace ProofDesk.Files

open Json (Value)
open Limits (Feedback Rendering Response)

def exposedName (x sentence : Text) : Value :=
  .ofFields [("ident", .ofText x), ("sentence", .ofText sentence)]

def feedbackJson (f : Feedback) : Value :=
  .ofFields [
    ("hypotheses_ident", .ofList (.ofOption .ofText) f.hypothesisNames),
    ("initial_goal", .ofText f.initialGoal),
    ("goals", .ofList .ofText f.goals),
    ("sentences", .ofList (.ofList fun (x, sentence) => exposedName x sentence) f.sentences),
    ("error", .ofOption .ofText f.error)]

def requestJson (text : Text) (lines : List Nat) : Value :=
  .ofFields [("text", .ofText text), ("lines", .ofList .ofNat lines)]

def responseOfJson? (v : Value) : Option Response := do
  match ← v.fields? ["states", "error"] 1 with
  | [some states, error] => return ⟨← states.texts?, ← Value.optionalText? error⟩
  | _ => none

end ProofDesk.Files
