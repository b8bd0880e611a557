import ProofDesk.Logic.Connective

/-!
Sentences as they are written, before it is known which names are variables and which are
constants.  A name standing as a term is a `symbol`; a predicate without arguments has the empty
list.  The printer puts parentheses around binary operands only, which is enough to read the
sentence back.
-/

namespace ProofDesk.Logic

namespace Raw

inductive Term where
  | symbol (x : Text)
  | application (f : Text) (arguments : List Term)

inductive Sentence where
  | truth (value : Bool)
  | predicate (p : Text) (arguments : List Term)
  | negation (s : Sentence)
  | binary (left : Sentence) (c : Connective) (right : Sentence)
  | quantified (q : Quantifier) (x : Text) (body : Sentence)

mutual

def Term.decEq : (s t : Term) → Decidable (s = t)
  | .symbol x, .symbol y =>
    if same : x = y then isTrue (by rw [same]) else isFalse (by simp [same])
  | .symbol _, .application _ _ => isFalse (by simp)
  | .application _ _, .symbol _ => isFalse (by simp)
  | .application f ss, .application g ts =>
    if symbols : f = g then
      match Term.decEqs ss ts with
      | isTrue arguments => isTrue (by rw [symbols, arguments])
      | isFalse arguments => isFalse (by simp [arguments])
    else isFalse (by simp [symbols])

def Term.decEqs : (ss ts : List Term) → Decidable (ss = ts)
  | [], [] => isTrue rfl
  | [], _ :: _ => isFalse (by simp)
  | _ :: _, [] => isFalse (by simp)
  | s :: ss, t :: ts =>
    match Term.decEq s t, Term.decEqs ss ts with
    | isTrue first, isTrue rest => isTrue (by rw [first, rest])
    | isFalse first, _ => isFalse (by simp [first])
    | _, isFalse rest => isFalse (by simp [rest])

end

instance : DecidableEq Term := Term.decEq

deriving instance DecidableEq for Sentence

mutual

def Term.print : Term → Text
  | .symbol x => x
  | .application f ts => f ++ "(" ++ Term.printArguments ts ++ ")"

def Term.printArguments : List Term → Text
  | [] => []
  | t :: ts => t.print ++ Term.printFurther ts

def Term.printFurther : List Term → Text
  | [] => []
  | t :: ts => ", " ++ t.print ++ Term.printFurther ts

end

def Sentence.isBinary : Sentence → Bool
  | .binary .. => true
  | _ => false

def Sentence.print : Sentence → Text
  | .truth true => "true"
  | .truth false => "false"
  | .predicate p [] => p
  | .predicate p (t :: ts) => p ++ "(" ++ Term.printArguments (t :: ts) ++ ")"
  | .negation s => "-" ++ enclose s.isBinary s.print
  | .binary l c r =>
    enclose l.isBinary l.print ++ " " ++ c.print ++ " " ++ enclose r.isBinary r.print
  | .quantified q x s => q.print ++ " " ++ x ++ " " ++ enclose s.isBinary s.print

end Raw
end ProofDesk.Logic
