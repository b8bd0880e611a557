import ProofDesk.Logic.Sentence

/-!
Substitution of a term for a symbol.  Constants and variables of the name are replaced alike;
occurrences below a quantifier that binds the name are not free and stay.  Where a replacement
would come below a quantifier that binds one of its own symbols, the substitution fails instead of
capturing that symbol.
-/

namespace ProofDesk.Logic

mutual

def Term.mentions (x : Symbol) : Term → Bool
  | .const c => c == x
  | .var y => y == x
  | .app _ ts => ts.mentions x

def Arguments.mentions (x : Symbol) : Arguments → Bool
  | .one t => t.mentions x
  | .cons t ts => t.mentions x || ts.mentions x

end

mutual

def Term.substitute (x : Symbol) (new : Term) : Term → Term
  | .const c => if c = x then new else .const c
  | .var y => if y = x then new else .var y
  | .app f ts => .app f (ts.substitute x new)

def Arguments.substitute (x : Symbol) (new : Term) : Arguments → Arguments
  | .one t => .one (Term.substitute x new t)
  | .cons t ts => .cons (Term.substitute x new t) (ts.substitute x new)

end

/-- The symbol that a substitution would have captured. -/
structure Capture where
  bound : Symbol
  deriving DecidableEq

def Capture.message (c : Capture) : Text := "substitution captures variable " ++ c.bound.name

namespace Sentence

/-- Whether a symbol occurs outside of every quantifier that binds it. -/
def isFree (x : Symbol) : Sentence → Bool
  | truth _ => false
  | proposition _ => false
  | predicate _ ts => ts.mentions x
  | negation s => s.isFree x
  | binary _ l r => l.isFree x || r.isFree x
  | quantified _ y s => y != x && s.isFree x

def substitute (x : Symbol) (new : Term) : Sentence → Except Capture Sentence
  | truth b => .ok (truth b)
  | proposition p => .ok (proposition p)
  | predicate p ts => .ok (predicate p (ts.substitute x new))
  | negation s => do return negation (← s.substitute x new)
  | binary c l r => do return binary c (← l.substitute x new) (← r.substitute x new)
  | quantified q y s =>
    if y = x then .ok (quantified q y s)
    else if new.mentions y && s.isFree x then .error ⟨y⟩
    else do return quantified q y (← s.substitute x new)

end Sentence
end ProofDesk.Logic
