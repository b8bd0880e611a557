import ProofDesk.Logic.Connective
import ProofDesk.Logic.Symbol

namespace ProofDesk.Logic

mutual

inductive Term where
  | const (c : Symbol)
  | var (x : Symbol)
  | app (f : Symbol) (arguments : Arguments)

/-- A list of at least one argument. -/
inductive Arguments where
  | one (t : Term)
  | cons (t : Term) (rest : Arguments)

end

deriving instance DecidableEq for Term, Arguments

inductive Sentence where
  | truth (value : Bool)
  | proposition (p : Symbol)
  | predicate (p : Symbol) (arguments : Arguments)
  | negation (s : Sentence)
  | binary (c : Connective) (left right : Sentence)
  | quantified (q : Quantifier) (x : Symbol) (body : Sentence)
  deriving DecidableEq

namespace Arguments

def toList : Arguments → List Term
  | one t => [t]
  | cons t ts => t :: ts.toList

def ofList? : List Term → Except FormationError Arguments
  | [] => .error .noArguments
  | [t] => .ok (one t)
  | t :: u :: ts => (ofList? (u :: ts)).map (cons t)

end Arguments

def Term.symbol : Term → Symbol
  | const c => c
  | var x => x
  | app f _ => f

def Term.app? (f : Text) (ts : List Term) : Except FormationError Term := do
  return .app (← Symbol.ofText? f) (← Arguments.ofList? ts)

def Sentence.predicate? (p : Text) (ts : List Term) : Except FormationError Sentence :=
  match Arguments.ofList? ts with
  | .ok arguments => (Symbol.ofText? p).map fun p => .predicate p arguments
  | .error _ => .error .predicateWithoutTerms

mutual

def Term.print : Term → Text
  | .const c => c.name
  | .var x => x.name
  | .app f ts => f.name ++ "(" ++ ts.print ++ ")"

def Arguments.print : Arguments → Text
  | .one t => t.print
  | .cons t ts => t.print ++ ", " ++ ts.print

end

namespace Sentence

def operands? (c : Connective) : Sentence → Option (Sentence × Sentence)
  | binary d l r => if d = c then some (l, r) else none
  | _ => none

def negated? : Sentence → Option Sentence
  | negation s => some s
  | _ => none

def body? (q : Quantifier) : Sentence → Option (Symbol × Sentence)
  | quantified r x s => if r = q then some (x, s) else none
  | _ => none

def isBinary : Sentence → Bool
  | binary .. => true
  | _ => false

def print : Sentence → Text
  | truth true => "true"
  | truth false => "false"
  | proposition p => p.name
  | predicate p ts => p.name ++ "(" ++ ts.print ++ ")"
  | negation s => "-" ++ enclose s.isBinary s.print
  | binary c l r =>
    enclose l.isBinary l.print ++ " " ++ c.print ++ " " ++ enclose r.isBinary r.print
  | quantified q x s => q.print ++ " " ++ x.name ++ " " ++ enclose s.isBinary s.print

end Sentence
end ProofDesk.Logic
