import ProofDesk.Limits.Statement
import ProofDesk.Text.Number

/-!
What a session knows about names: the classes they were declared with, the hypothesis that came with
a name, the current goal, and the number of the last anonymous hypothesis.  Names and classes are
only ever added.  The number has 32 bits, so that it begins again after the largest one.
-/

namespace ProofDesk.Limits

inductive Class where
  | sequence
  | real
  | natural
  deriving DecidableEq, Repr

structure Classification where
  isSequence : Bool := false
  isReal : Bool := false
  isNatural : Bool := false
  associate : Option Text := none
  deriving DecidableEq, Repr

namespace Classification

def has (c : Classification) : Class → Bool
  | .sequence => c.isSequence
  | .real => c.isReal
  | .natural => c.isNatural

def add (c : Classification) : Class → Classification
  | .sequence => { c with isSequence := true }
  | .real => { c with isReal := true }
  | .natural => { c with isNatural := true }

def classes (c : Classification) : List Class :=
  [Class.sequence, .real, .natural].filter c.has

end Classification

structure Context where
  /-- Names in the order in which they became known, each once. -/
  names : List (Text × Classification) := []
  goal : Option Statement := none
  anonymous : UInt32 := 0
  deriving DecidableEq, Repr

def anonymousName (n : Nat) : Text := 'A' :: Text.ofNat n

def anonymousNumber? (name : Text) : Option UInt32 :=
  ((Text.stripLeading? "A" name).bind (Text.readNumber? 10 32)).map UInt32.ofNat

namespace Context

def empty : Context := {}

def get? (ctx : Context) (x : Text) : Option Classification := ctx.names.lookup x

/-- Change the classification of a name, which becomes known if it was not. -/
def updateNames (x : Text) (f : Classification → Classification) :
    List (Text × Classification) → List (Text × Classification)
  | [] => [(x, f {})]
  | (y, c) :: names => if y = x then (y, f c) :: names else (y, c) :: updateNames x f names

def update (ctx : Context) (x : Text) (f : Classification → Classification) : Context :=
  { ctx with names := updateNames x f ctx.names }

def add (ctx : Context) (x : Text) (c : Class) : Context := ctx.update x fun k => k.add c

def is (ctx : Context) (x : Text) (c : Class) : Bool := ((ctx.get? x).map (·.has c)).getD false

def associate (ctx : Context) (x hyp : Text) : Context :=
  ctx.update x fun k => { k with associate := some hyp }

def associate? (ctx : Context) (x : Text) : Option Text := (ctx.get? x).bind (·.associate)

def nextName (ctx : Context) : Text := anonymousName (ctx.anonymous + 1).toNat

def mint (ctx : Context) : Context := { ctx with anonymous := ctx.anonymous + 1 }

/-- Take account of a hypothesis name that was chosen elsewhere: anonymous names come after it. -/
def observe (ctx : Context) (name : Text) : Context :=
  match anonymousNumber? name with
  | some n => { ctx with anonymous := max ctx.anonymous n }
  | none => ctx

def declare (ctx : Context) : Statement → Context
  | .sequenceDeclaration xs => xs.foldl (fun ctx x => ctx.add x .sequence) ctx
  | .realDeclaration x => ctx.add x .real
  | .naturalDeclaration x => ctx.add x .natural
  | _ => ctx

end Context
end ProofDesk.Limits
