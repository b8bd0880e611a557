import ProofDesk.Logic.Parser
import ProofDesk.Logic.Sentence
import ProofDesk.Logic.Stack

/-!
Scoping tells variables from constants: a name is a variable if an enclosing quantifier binds it or
if it is bound from the start, and a constant otherwise.  The bound names are kept on one stack,
which every function leaves as it found it.
-/

namespace ProofDesk.Logic

inductive ReadError where
  | parse (e : ParseError)
  | formation (e : FormationError)
  deriving DecidableEq, Repr

def ReadError.message : ReadError → Text
  | parse e => e.message
  | formation e => e.message

/-- A scoping step: it sees the bound names and may fail. -/
abbrev Scoping (α : Type) := Stack.Action Text FormationError α

namespace Scoping

variable {α β : Type}

def lift (result : Except FormationError α) : Scoping α := fun bound => (result, bound)

def andThen (first : Scoping α) (next : α → Scoping β) : Scoping β := fun bound =>
  match first bound with
  | (.ok a, after) => next a after
  | (.error e, after) => (.error e, after)

end Scoping

namespace Raw

mutual

def Term.scope : Term → Scoping Logic.Term
  | .symbol x => fun bound =>
    if bound.contains x then ((Symbol.ofText? x).map .var, bound)
    else ((Symbol.ofText? x).map .const, bound)
  | .application f ts =>
    (Scoping.lift (Symbol.ofText? f)).andThen fun f =>
    (Term.scopeAll ts).andThen fun ts =>
    Scoping.lift ((Arguments.ofList? ts).map (.app f))

def Term.scopeAll : List Term → Scoping (List Logic.Term)
  | [] => Scoping.lift (.ok [])
  | t :: ts =>
    t.scope.andThen fun t =>
    (Term.scopeAll ts).andThen fun ts =>
    Scoping.lift (.ok (t :: ts))

end

def Sentence.scope : Sentence → Scoping Logic.Sentence
  | .truth b => Scoping.lift (.ok (.truth b))
  | .predicate p [] => Scoping.lift ((Symbol.ofText? p).map .proposition)
  | .predicate p (t :: ts) =>
    (Scoping.lift (Symbol.ofText? p)).andThen fun p =>
    (Term.scopeAll (t :: ts)).andThen fun ts =>
    Scoping.lift ((Arguments.ofList? ts).map (.predicate p))
  | .negation s => s.scope.andThen fun s => Scoping.lift (.ok (.negation s))
  | .binary l c r =>
    l.scope.andThen fun l =>
    r.scope.andThen fun r =>
    Scoping.lift (.ok (.binary c l r))
  | .quantified q x s =>
    Scoping.andThen (Stack.withPushed x s.scope) fun s =>
    Scoping.lift ((Symbol.ofText? x).map fun x => .quantified q x s)

end Raw

/-- The sentence that a text is, without names bound from outside. -/
def Sentence.parse (s : Text) : Except ReadError Sentence :=
  match Raw.Sentence.parse s with
  | .error e => .error (.parse e)
  | .ok raw => (raw.scope .empty).1.mapError .formation

def Term.parse (s : Text) (bound : List Text) : Except ReadError Term :=
  match Raw.Term.parse s with
  | .error e => .error (.parse e)
  | .ok raw => (raw.scope (bound.foldl .push .empty)).1.mapError .formation

end ProofDesk.Logic
