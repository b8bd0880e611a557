import ProofDesk.Deduction.Arena

/-!
Reports on a proof as it is stored.  The check of a subtree and the printed tree go through the walk
over the cells.  The complaints about all nodes are gathered with a stack of paths alone, each of
which is looked up again when its turn comes.
-/

namespace ProofDesk.Deduction

def Cell.printLine (path : Path) (cell : Cell) : Text :=
  Proof.printLine path (.node cell.sentence cell.justification [])

namespace Arena

def complaint? (a : Arena) (path : Path) : Option ProofError :=
  match a.verify path with
  | .ok _ => none
  | .error e => some e

def check (a : Arena) (path : Path) : Bool :=
  let below := a.walk.filter fun (q, _) => path.leadsTo q
  !below.isEmpty && below.all fun (q, _) => (a.complaint? q).isNone

/-- The paths of the children of a node; where there is no node there are none. -/
def childPaths (a : Arena) (path : Path) : List Path :=
  (List.range ((a.childCount path).toOption.getD 0)).map fun index => path ++ [index]

/-- Take paths from a stack, in at most the given number of steps, note the complaint about the node
at each and put the paths of its children there. -/
def errorsFrom (a : Arena) : Nat → List Path → List ProofError
  | 0, _ => []
  | _ + 1, [] => []
  | steps + 1, path :: todo =>
    (a.complaint? path).toList ++ a.errorsFrom steps (a.childPaths path ++ todo)

def errors (a : Arena) : List ProofError := a.errorsFrom a.cells.length [[]]

def print (a : Arena) : Text :=
  a.walk.flatMap fun (path, id) => (a.cells[id]?.map (Cell.printLine path)).getD []

end Arena
end ProofDesk.Deduction
