import ProofDesk.Deduction.Proof

/-!
Proofs as they are stored.  All nodes lie in one list of cells, which refer to their children by
number; the first cell is the root.  A removed subtree is only unlinked: its cells stay in the list
and are renumbered with the others.
-/

namespace ProofDesk.Deduction

open Logic (Sentence)

structure Cell where
  sentence : Sentence
  justification : Option Justification
  children : List Nat
  deriving DecidableEq

structure Arena where
  cells : List Cell
  deriving DecidableEq

namespace Cell

def single (s : Sentence) : Cell := ⟨s, none, []⟩

def citations (cell : Cell) : List Path :=
  (cell.justification.map Justification.citations).getD []

def renumber (shift : Path → Path) (cell : Cell) : Cell :=
  { cell with justification := cell.justification.map (Justification.renumber shift) }

def insertChild (index id : Nat) (cell : Cell) : Cell :=
  { cell with children := cell.children.insertIdx index id }

def eraseChild (index : Nat) (cell : Cell) : Cell :=
  { cell with children := cell.children.eraseIdx index }

end Cell

namespace Arena

def single (s : Sentence) : Arena := ⟨[Cell.single s]⟩

def child? (a : Arena) (id index : Nat) : Option Nat :=
  a.cells[id]?.bind fun cell => cell.children[index]?

def follow? (a : Arena) : Nat → Path → Option Nat
  | id, [] => some id
  | id, index :: path => (a.child? id index).bind fun child => a.follow? child path

def find? (a : Arena) (path : Path) : Option Nat := a.follow? 0 path

def cell? (a : Arena) (path : Path) : Option Cell := (a.find? path).bind fun id => a.cells[id]?

def find (a : Arena) (path : Path) : Except ProofError Nat :=
  match a.find? path with
  | some id => .ok id
  | none => .error (.invalidPosition path)

def get (a : Arena) (path : Path) : Except ProofError Cell :=
  match a.cell? path with
  | some cell => .ok cell
  | none => .error (.invalidPosition path)

def modify (f : Cell → Cell) (id : Nat) (a : Arena) : Arena := ⟨a.cells.modify id f⟩

def push (s : Sentence) (a : Arena) : Arena := ⟨a.cells ++ [Cell.single s]⟩

/-- Apply a change of paths to every citation, also to those of removed nodes. -/
def renumber (shift : Path → Path) (a : Arena) : Arena := ⟨a.cells.map (Cell.renumber shift)⟩

def below (a : Arena) (path : Path) (id : Nat) : List (Path × Nat) :=
  ((a.cells[id]?.map Cell.children).getD []).mapIdx fun index child => (path ++ [index], child)

/-- Take nodes from a stack, in at most the given number of steps, and put their children there. -/
def walkFrom (a : Arena) : Nat → List (Path × Nat) → List (Path × Nat)
  | 0, _ => []
  | _ + 1, [] => []
  | steps + 1, (path, id) :: todo => (path, id) :: a.walkFrom steps (a.below path id ++ todo)

def walk (a : Arena) : List (Path × Nat) := a.walkFrom a.cells.length [([], 0)]

def childCount (a : Arena) (path : Path) : Except ProofError Nat := do
  return (← a.get path).children.length

def setSentence (a : Arena) (path : Path) (s : Sentence) : Except ProofError Arena := do
  let id ← a.find path
  return a.modify (fun cell => { cell with sentence := s }) id

def insertAt (a : Arena) (s : Sentence) (parent : Path) (index : Nat) :
    Except ProofError (Path × Arena) := do
  let parentId ← a.find parent
  let path := parent ++ [index]
  if (← a.childCount parent) < index then .error (.invalidPosition path)
  else
    let extended := (a.renumber (Path.insertShift parent index)).push s
    return (path, extended.modify (Cell.insertChild index a.cells.length) parentId)

def insert (a : Arena) (s : Sentence) (parent : Path) : Except ProofError (Path × Arena) := do
  a.insertAt s parent (← a.childCount parent)

def resolveOne (a : Arena) (position : Path) : Antecedent → Except ProofError Sentence
  | .sentence s => .ok s
  | .path cited =>
    if cited.inScope position then (a.get cited).map Cell.sentence
    else .error (.scopeViolation position cited)

def resolve (a : Arena) (position : Path) (antecedents : List Antecedent) :
    Except ProofError (List Sentence) :=
  antecedents.mapM (a.resolveOne position)

def derive (a : Arena) (position : Path) (j : Justification) : Except ProofError Sentence := do
  let sentences ← a.resolve position j.antecedents
  match j.rule.apply sentences j.arguments with
  | .ok (some derived) => return derived
  | .ok none => .error (.noConclusion j.rule)
  | .error e => .error (.rule e)

/-- Attach a justification to a cell, whether or not it derives the sentence there. -/
def attach (j : Justification) (id : Nat) (a : Arena) : Arena :=
  a.modify (fun cell => { cell with justification := some j }) id

def insertDerived (a : Arena) (parent : Path) (j : Justification) :
    Except ProofError (Path × Arena) := do
  let count ← a.childCount parent
  let derived ← a.derive (parent ++ [count]) j
  let (path, extended) ← a.insert derived parent
  let id ← extended.find path
  return (path, extended.attach j id)

def justify (a : Arena) (path : Path) (j : Justification) : Except ProofError Arena := do
  let id ← a.find path
  discard (a.resolve path j.antecedents)
  return a.attach j id

/-- The first citation of a node inside the subtree at `path` by a node outside of it. -/
def referenceInto? (a : Arena) (path : Path) : Option (Path × Path) :=
  a.walk.findSome? fun (referrer, id) =>
    if path.leadsTo referrer then none
    else (((a.cells[id]?.map Cell.citations).getD []).find? path.leadsTo).map fun target =>
      (referrer, target)

/-- Unlink the subtree at a path and shift later siblings one to the left.  The result also has the
unlinked cell. -/
def remove (a : Arena) (path : Path) : Except ProofError (Option Cell × Arena) := do
  match path.getLast? with
  | none => .error (.invalidPosition [])
  | some index =>
    let id ← a.find path
    match a.referenceInto? path with
    | some (referrer, target) => .error (.referenced referrer target)
    | none =>
      let parent := path.dropLast
      let parentId ← a.find parent
      let unlinked := a.modify (Cell.eraseChild index) parentId
      let renumbered := unlinked.renumber (Path.removeShift parent index)
      return (renumbered.cells[id]?, renumbered)

def verify (a : Arena) (path : Path) : Except ProofError Unit := do
  let found ← a.get path
  match found.justification with
  | none => .error (.unjustified path)
  | some j =>
    if j.rule.isAssumption then return ()
    let derived ← a.derive path j
    if derived = found.sentence then return () else .error (.mismatch path derived)

end Arena
end ProofDesk.Deduction
