import ProofDesk.Limits.Context
import ProofDesk.Text.Template

/-!
Readers that both written forms of statements share.  A compound statement is read by cutting the
text at each separator from left to right until both sides can be read; a quantified one by taking
its header away.  What a reader needs for the parts is a parameter.
-/

namespace ProofDesk.Limits

def isLine (s : Text) : Bool := !s.isEmpty && !s.contains '\n'

def headerOf? (header : Template) (s : Text) : Option (List Text × Text) :=
  (header.read? s).filter fun (_, rest) => isLine rest

def identifier? (s : Text) : Option Statement :=
  if Text.isName s then some (.identifier s) else none

def application? (ctx : Context) (seq index : Text) : Option Statement :=
  if ctx.is seq .sequence then some (.application seq index) else none

def arithmetic? (ops : List (Text × Operation)) (leaf : Text → Option Statement) (s : Text) :
    Option Statement :=
  (Text.splits ops s).findSome? fun (left, op, right) => do
    return .arithmetic (← leaf left) op (← leaf right)

def inequality? (relations : List (Text × Relation)) (side : Text → Option Statement) (s : Text) :
    Option Statement :=
  (Text.splits relations s).findSome? fun (left, rel, right) => do
    return .inequality (← side left) rel (← side right)

def conjunction? (separator : Text) (body : Text → Option Statement) (s : Text) :
    Option Statement :=
  (Text.splits [(separator, ())] s).findSome? fun (left, _, right) => do
    return .conjunction (← body left) (← body right)

def underHeader? (header : Template) (body : Text → Option Statement) (s : Text) :
    Option (List Text × Statement) := do
  let (names, rest) ← headerOf? header s
  return (names, ← body rest)

def forAll? (header : Template) (body : Text → Option Statement) (s : Text) : Option Statement :=
  match underHeader? header body s with
  | some ([x], v) => some (.forAll x v)
  | _ => none

def forAllFrom? (header : Template) (body : Text → Option Statement) (s : Text) :
    Option Statement :=
  match underHeader? header body s with
  | some ([var, bound], v) => some (.forAllFrom var bound v)
  | _ => none

def thereIs? (header : Template) (body : Text → Option Statement) (s : Text) : Option Statement :=
  match underHeader? header body s with
  | some ([x], v) => some (.thereIs x v)
  | _ => none

def composedLimit? (forms : List (Template × Operation)) (s : Text) : Option Statement :=
  forms.findSome? fun (form, op) =>
    match form.match? s with
    | some [a, b, l, m] => some (.composedLimit a b op l m)
    | _ => none

def declared (ctx : Context) (v : Statement) : Statement × Context := (v, ctx.declare v)

end ProofDesk.Limits
