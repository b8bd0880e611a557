import ProofDesk.Limits.Session

namespace ProofDesk.Limits

structure Rendering where
  text : Text
  /-- Numbers of lines, counted from one. -/
  lines : List Nat
  deriving DecidableEq, Repr

inductive ProofStep where
  | initial
  | line (index : Nat)
  deriving DecidableEq, Repr

def preamble : List Text := [
  "import data.real.basic", "import tactic", "", "notation `|`x`|` := abs x", "",
  "def is_limit (a : ℕ → ℝ) (l : ℝ) : Prop :=", "∀ ε > 0, ∃ N, ∀ n ≥ N, |a n - l| < ε", ""]

def renderHypothesis : Option Text → Statement → Text
  | some name, v => "  (" ++ name ++ " : " ++ v.formal ++ ")"
  | none, v => "  (" ++ v.formal ++ ")"

def renderLine (t : Tactic) : Text := "  " ++ t.formal ++ t.terminator

namespace Session

def opening (s : Session) (goal : Statement) : List Text :=
  preamble ++ [("theorem " ++ s.name : Text)] ++
    List.zipWith renderHypothesis s.hypothesisNames s.hypotheses ++
    [("  : " ++ goal.formal ++ " :=" : Text), "begin"]

def render (s : Session) : Except SessionError Rendering :=
  match s.goal with
  | none => .error .noGoal
  | some goal =>
    let steps := s.proof.map fun line => renderLine line.tactic
    let closing : List Text := ["end"]
    .ok {
      text := Text.joinWith "\n" (s.opening goal ++ steps ++ closing) ++ "\n"
      lines := (List.range (s.proof.length + 1)).map fun i => (s.opening goal).length + i }

end Session

def Rendering.step? (r : Rendering) (line : Nat) : Option ProofStep :=
  (r.lines.findIdx? (· == line)).map fun
    | 0 => .initial
    | i + 1 => .line i

end ProofDesk.Limits
